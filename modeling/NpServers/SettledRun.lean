import NpServers.SettledServer

namespace NpServers.Shell

open CrossPipe DescriptorTable TransitionPath

/-!
# Runs of the server without self-piped commands

A login opens a socket and fills a slot, and a logout closes what the slot has
recorded.  Together with the effect of a line this keeps the server settled
along every run in which no single command reads and writes the pipe from its
client to itself.
-/

namespace Server

variable {server next : Server}

/-! ## The first state -/

/-- Only the terminal and the listener are open at first. -/
theorem pipe?_initial
    {fd : Int}
    {file : File}
    (isOpen : initial.fds.file fd = some file) :
    file.pipe? = none := by
  simp only [initial, openFile_file, Function.update_apply] at isOpen
  split_ifs at isOpen
  all_goals cases isOpen
  all_goals rfl

theorem pipesBelow_initial
    (bound : Nat) :
    PipesBelow bound initial.fds := by
  intro fd file pipe isOpen isPipe
  rw [pipe?_initial isOpen] at isPipe
  cases isPipe

theorem not_recorded_initial
    (port : Port) :
    ¬ initial.client.Recorded port := by
  have noneFree : ¬ (0 : Int) ≤ -1 := by decide
  cases port with
  | readFd c slot =>
      rintro ⟨state, _⟩
      cases state
  | writeFd c slot =>
      rintro ⟨state, _⟩
      cases state
  | userPipe receiver sender =>
      exact noneFree

theorem settled_initial : initial.Settled where
  healthy := by
    refine ⟨?_, ?_, ?_, ?_⟩
    · intro fd isStandard
      rcases isStandard.cases with rfl | rfl | rfl <;> rfl
    · intro first second file pipe isOpen _ isPipe
      rw [pipe?_initial isOpen] at isPipe
      cases isPipe
    · intro fd file pipe isOpen isPipe
      rw [pipe?_initial isOpen] at isPipe
      cases isPipe
    · intro c isClient
      cases isClient
  sockets := by
    refine ⟨?_, ?_⟩
    · intro fd inRange
      exact absurd inRange (show ¬ (0 : Int) ≤ -1 by decide)
    · intro c isClient
      cases isClient
  sound := soundTables_initial
  record := by
    intro c slot recorded
    cases recorded
  wired := by
    refine ⟨?_, ?_, ?_⟩
    · intro first second isHeld
      exact absurd isHeld (not_recorded_initial first)
    · intro c slot isHeld
      exact absurd isHeld (not_recorded_initial (.readFd c slot))
    · intro receiver sender isHeld
      exact absurd isHeld (not_recorded_initial (.userPipe receiver sender))
  known := by
    refine ⟨pipesBelow_initial _, ?_⟩
    intro child member
    cases member

/-! ## Login -/

/-- The slot of a client after a login. -/
theorem login_list
    (server : Server)
    (c : Nat) :
    server.login.client.list c =
      if c = server.main.minId then
        .loggedIn server.fds.lowestFree
      else
        server.client.list c := by
  change Function.update server.client.list server.main.minId _ c = _
  rw [Function.update_apply]

/-- Nothing waits in a new slot. -/
theorem not_pending_initial
    (slot : Nat) :
    ¬ initialCrossPipeInfor.Pending slot := by
  rintro ⟨_, counts⟩
  exact absurd counts (by decide : ¬ (0 : Int) < -1)

/-- What is recorded after a login was so before, in another slot. -/
theorem recorded_of_login
    {port : Port}
    (recorded : server.login.client.Recorded port) :
    server.client.Recorded port ∧
      port.fd server.login.client = port.fd server.client := by
  have noneFree : ¬ (0 : Int) ≤ -1 := by decide
  cases port with
  | readFd c slot =>
      simp only [ClientStructure.Recorded, ClientStructure.Waiting, Port.fd,
        login_list] at recorded ⊢
      split_ifs at recorded ⊢ with new
      · exact absurd recorded.2 (not_pending_initial slot)
      · exact ⟨recorded, rfl⟩
  | writeFd c slot =>
      simp only [ClientStructure.Recorded, ClientStructure.Waiting, Port.fd,
        login_list] at recorded ⊢
      split_ifs at recorded ⊢ with new
      · exact absurd recorded.2 (not_pending_initial slot)
      · exact ⟨recorded, rfl⟩
  | userPipe receiver sender =>
      simp only [ClientStructure.Recorded, Port.fd, login_list] at recorded ⊢
      split_ifs at recorded ⊢ with new
      · exact absurd recorded noneFree
      · exact ⟨recorded, rfl⟩

/-- The pipes are those that were open before. -/
theorem file_of_login
    {fd : Int}
    {file : File}
    {pipe : Nat}
    (isOpen : server.login.fds.file fd = some file)
    (isPipe : file.pipe? = some pipe) :
    server.fds.file fd = some file := by
  change (server.fds.openFile _).file fd = some file at isOpen
  rw [openFile_file] at isOpen
  by_cases new : fd = server.fds.lowestFree
  · rw [new, Function.update_self] at isOpen
    cases isOpen
    cases isPipe
  · rwa [Function.update_of_ne new] at isOpen

theorem Settled.login
    (settled : server.Settled) :
    server.login.Settled where
  healthy := by
    refine ⟨?_, ?_, ?_, ?_⟩
    · intro fd isStandard
      exact openFile_file_of_open (settled.healthy.standard isStandard) _
    · intro first second file pipe firstOpen secondOpen isPipe
      exact settled.healthy.unique (file_of_login firstOpen isPipe)
        (file_of_login secondOpen isPipe) isPipe
    · intro fd file pipe isOpen isPipe
      exact settled.healthy.known (file_of_login isOpen isPipe) isPipe
    · intro c
      rw [login_list]
      split_ifs
      · intro _
        exact ⟨server.nextConnection, Function.update_self ..⟩
      · intro isClient
        obtain ⟨connection, isOpen⟩ := settled.healthy.socket isClient
        exact ⟨connection, openFile_file_of_open isOpen _⟩
  sockets := by
    have sameIds (fd : Int) :
        server.login.main.fdIdList fd =
          if fd = server.fds.lowestFree then (server.main.minId : Int)
          else server.main.fdIdList fd := by
      change Function.update server.main.fdIdList _ _ fd = _
      rw [Function.update_apply]
    refine ⟨?_, ?_⟩
    · intro fd inRange
      rw [sameIds] at inRange
      split_ifs at inRange with new
      · rw [new]
        exact ⟨server.nextConnection, Function.update_self ..⟩
      · obtain ⟨connection, isOpen⟩ := settled.sockets.isOpen inRange
        exact ⟨connection, openFile_file_of_open isOpen _⟩
    · intro c
      rw [login_list, sameIds]
      split_ifs with own new other
      · intro _
        rw [own]
      · exact absurd rfl new
      · intro isClient
        obtain ⟨connection, isOpen⟩ := settled.healthy.socket isClient
        exact absurd other (ne_lowestFree isOpen)
      · exact settled.sockets.own
  sound := settled.sound.login
  record := by
    intro c slot
    rw [login_list]
    split_ifs
    · intro recorded
      cases recorded
    · exact settled.record
  wired := by
    refine settled.wired.of_kept (fun recorded => (recorded_of_login recorded).1)
      id (fun recorded => (recorded_of_login recorded).2) ?_
    intro port file _ isOpen
    exact openFile_file_of_open isOpen _
  known := by
    exact settled.known.of_draws ((DrawsFrom.refl _).openFile rfl) rfl rfl

/-! ## Logout -/

/-- The places whose descriptors `delete_client_infor` closes. -/
def leavingPorts (server : Server) : List Port :=
  let id := server.client.id
  (server.infor.closeFdRecord.flatMap fun slot =>
      [.writeFd id slot, .readFd id slot]) ++
    clientIds.flatMap fun i =>
      (if 0 ≤ server.self.userPipe i then [.userPipe id i] else []) ++
        if 0 ≤ (server.client.list i).userPipe id then [.userPipe i id] else []

theorem deleteFds_eq
    (server : Server)
    (fds : DescriptorTable File) :
    server.deleteFds fds =
      fds.closeAll (server.leavingPorts.map (Port.fd server.client)) := by
  have crossClosed :
      (if server.infor.dataNum ≠ 0 then
          closeCrossPipeFd server.infor (-1) fds
        else
          fds) =
        fds.closeAll
          ((server.infor.closeFdRecord.flatMap fun slot =>
            [Port.writeFd server.client.id slot,
              .readFd server.client.id slot]).map (Port.fd server.client)) := by
    have allOther (slot : Nat) : (-1 : Int) ≠ slot := by omega
    have isCross := closeCrossPipeFd_eq server.infor (-1) fds
    simp only [crossFds, allOther, ne_eq, not_false_eq_true, decide_true,
      List.filter_true] at isCross
    split_ifs with some
    · rw [isCross, List.map_flatMap]
      rfl
    · have none : server.infor.closeFdRecord = [] := by
        simpa [dataNum] using some
      rw [none]
      rfl
  unfold deleteFds leavingPorts
  rw [crossClosed, List.map_append, closeAll_append]
  generalize fds.closeAll _ = closed
  induction clientIds generalizing closed with
  | nil => rfl
  | cons i rest inductionHypothesis =>
      rw [List.foldl_cons, inductionHypothesis, List.flatMap_cons,
        List.map_append, closeAll_append]
      congr 1
      split_ifs <;> rfl

/-- What is closed at a logout is recorded. -/
theorem Settled.recorded_of_leaving
    (settled : server.Settled)
    (state : (server.client.list server.client.id).state = true)
    {port : Port}
    (leaving : port ∈ server.leavingPorts) :
    server.client.Recorded port := by
  unfold leavingPorts at leaving
  rcases List.mem_append.mp leaving with inBlock | inRow
  · obtain ⟨slot, recorded, isPort⟩ := List.mem_flatMap.mp inBlock
    have waiting : server.client.Waiting server.client.id slot :=
      ⟨state, settled.record recorded⟩
    rcases List.mem_pair.mp isPort with rfl | rfl
    · exact waiting
    · exact waiting
  · obtain ⟨i, _, isPort⟩ := List.mem_flatMap.mp inRow
    rcases List.mem_append.mp isPort with inOwn | inOther
    · rw [List.mem_ite_nil_right, List.mem_singleton] at inOwn
      obtain ⟨given, rfl⟩ := inOwn
      exact given
    · rw [List.mem_ite_nil_right, List.mem_singleton] at inOther
      obtain ⟨given, rfl⟩ := inOther
      exact given

/-- The slot of a client after the current one has left. -/
theorem logout_list
    {fd : Int}
    (isId : (server.main.fdIdList fd).toNat = server.client.id)
    (c : Nat) :
    (server.logout fd).client.list c =
      (deleteClientInfor server.client).list c := by
  change (deleteClientInfor { server.client with
    id := (server.main.fdIdList fd).toNat }).list c = _
  rw [isId]

/-- The places of other clients that are closed hold pipes from the leaving one. -/
theorem client_of_leaving
    {port : Port}
    (leaving : port ∈ server.leavingPorts) :
    match port with
    | .readFd c _ | .writeFd c _ => c = server.client.id
    | .userPipe receiver sender =>
        receiver = server.client.id ∨
          receiver ∈ clientIds ∧ sender = server.client.id := by
  unfold leavingPorts at leaving
  rcases List.mem_append.mp leaving with inBlock | inRow
  · obtain ⟨slot, _, isPort⟩ := List.mem_flatMap.mp inBlock
    rcases List.mem_pair.mp isPort with rfl | rfl
    · rfl
    · rfl
  · obtain ⟨i, isClient, isPort⟩ := List.mem_flatMap.mp inRow
    rcases List.mem_append.mp isPort with inOwn | inOther
    · rw [List.mem_ite_nil_right, List.mem_singleton] at inOwn
      obtain ⟨_, rfl⟩ := inOwn
      exact Or.inl rfl
    · rw [List.mem_ite_nil_right, List.mem_singleton] at inOther
      obtain ⟨_, rfl⟩ := inOther
      exact Or.inr ⟨isClient, rfl⟩

/-- An entry that is left in a cleared row is not the leaving client's. -/
theorem clearUserPipe_nonneg
    {userPipe : Nat → Int}
    {id sender : Nat}
    (given : 0 ≤ clearUserPipe userPipe id sender) :
    sender ≠ id ∧ clearUserPipe userPipe id sender = userPipe sender := by
  unfold clearUserPipe at given ⊢
  split_ifs at given ⊢ with occupied
  · rw [Function.update_apply] at given ⊢
    split_ifs at given ⊢ with own
    · exact absurd given (by decide)
    · exact ⟨own, rfl⟩
  · refine ⟨?_, rfl⟩
    rintro rfl
    exact occupied given

/-- What is recorded after a logout was so before, and is not closed. -/
theorem recorded_of_logout
    {fd : Int}
    (isId : (server.main.fdIdList fd).toNat = server.client.id)
    {port : Port}
    (recorded : (server.logout fd).client.Recorded port) :
    server.client.Recorded port ∧
      port.fd (server.logout fd).client = port.fd server.client ∧
      port ∉ server.leavingPorts := by
  have sameBlocks {c : Nat}
      (state : ((server.logout fd).client.list c).state = true) :
      c ≠ server.client.id ∧
        (server.client.list c).state = true ∧
        ((server.logout fd).client.list c).cpInfor =
          (server.client.list c).cpInfor := by
    rw [logout_list isId] at state ⊢
    unfold deleteClientInfor at state ⊢
    dsimp only at state ⊢
    split_ifs at state ⊢ with own
    · cases state
    · exact ⟨own, state, rfl⟩
    · exact ⟨own, state, rfl⟩
  cases port with
  | readFd c slot =>
      obtain ⟨other, state, sameInfor⟩ := sameBlocks recorded.1
      have pending := recorded.2
      rw [sameInfor] at pending
      refine ⟨⟨state, pending⟩, ?_, fun leaving => other (client_of_leaving leaving)⟩
      simp only [Port.fd, sameInfor]
  | writeFd c slot =>
      obtain ⟨other, state, sameInfor⟩ := sameBlocks recorded.1
      have pending := recorded.2
      rw [sameInfor] at pending
      refine ⟨⟨state, pending⟩, ?_, fun leaving => other (client_of_leaving leaving)⟩
      simp only [Port.fd, sameInfor]
  | userPipe receiver sender =>
      change 0 ≤ ((server.logout fd).client.list receiver).userPipe sender at recorded
      change 0 ≤ (server.client.list receiver).userPipe sender ∧
        ((server.logout fd).client.list receiver).userPipe sender =
          (server.client.list receiver).userPipe sender ∧ _
      rw [logout_list isId] at recorded ⊢
      unfold deleteClientInfor at recorded ⊢
      dsimp only at recorded ⊢
      split_ifs at recorded ⊢ with own isClient
      · exact absurd recorded (show ¬ (0 : Int) ≤ -1 by decide)
      · obtain ⟨otherSender, same⟩ := clearUserPipe_nonneg recorded
        refine ⟨same ▸ recorded, same, ?_⟩
        intro leaving
        rcases client_of_leaving leaving with isOwn | ⟨_, isSender⟩
        · exact own isOwn
        · exact otherSender isSender
      · refine ⟨recorded, rfl, ?_⟩
        intro leaving
        rcases client_of_leaving leaving with isOwn | ⟨isReceiver, _⟩
        · exact own isOwn
        · exact isClient isReceiver

/-- The files that a logout does not close. -/
theorem logout_file_of_kept
    {fd other : Int}
    (kept : other ∉ server.leavingPorts.map (Port.fd server.client))
    (different : other ≠ fd) :
    (server.logout fd).fds.file other = server.fds.file other := by
  change (server.deleteFds (server.fds.close fd)).file other = _
  rw [deleteFds_eq, closeAll_file, if_neg kept, close_file,
    Function.update_of_ne different]

theorem file_of_logout
    {fd other : Int}
    {file : File}
    (isOpen : (server.logout fd).fds.file other = some file) :
    server.fds.file other = some file := by
  change (server.deleteFds (server.fds.close fd)).file other = _ at isOpen
  rw [deleteFds_eq, closeAll_file, Option.ite_none_left_eq_some, close_file,
    Function.update_apply, Option.ite_none_left_eq_some] at isOpen
  exact isOpen.2.2

section Logout

variable {fd : Int}

/-- A descriptor of anything but a pipe is not among those of the slot. -/
theorem Settled.file_logout
    (settled : server.Settled)
    (state : (server.client.list server.client.id).state = true)
    {other : Int}
    {file : File}
    (isOpen : server.fds.file other = some file)
    (notPipe : file.pipe? = none)
    (different : other ≠ fd) :
    (server.logout fd).fds.file other = some file := by
  rw [logout_file_of_kept ?_ different]
  · exact isOpen
  · intro leaving
    obtain ⟨port, isLeaving, rfl⟩ := List.mem_map.mp leaving
    obtain ⟨found, pipe, pipeOpen, isPipe⟩ :=
      settled.wired.file_of_held id
        (settled.recorded_of_leaving state isLeaving)
    cases isOpen.symm.trans pipeOpen
    rw [notPipe] at isPipe
    cases isPipe

theorem Settled.logout
    (settled : server.Settled)
    (state : (server.client.list server.client.id).state = true)
    (isId : server.main.fdIdList fd = server.client.id) :
    (server.logout fd).Settled := by
  have isNat : (server.main.fdIdList fd).toNat = server.client.id := by
    rw [isId]
    rfl
  have inUse : 0 ≤ server.main.fdIdList fd := by
    rw [isId]
    exact Int.natCast_nonneg _
  obtain ⟨socket, isSocket⟩ := settled.sockets.isOpen inUse
  have staying {c : Nat}
      (isClient : ((server.logout fd).client.list c).state = true) :
      (server.client.list c).state = true ∧
        ((server.logout fd).client.list c).sockfd =
          (server.client.list c).sockfd ∧
        (server.client.list c).sockfd ≠ fd := by
    have apart (c : Nat)
        (isClient : (server.client.list c).state = true)
        (other : c ≠ server.client.id) :
        (server.client.list c).sockfd ≠ fd := by
      intro same
      have own := settled.sockets.own isClient
      rw [same, isId] at own
      exact other (Int.ofNat.inj own).symm
    rw [logout_list isNat] at isClient ⊢
    unfold deleteClientInfor at isClient ⊢
    dsimp only at isClient ⊢
    split_ifs at isClient ⊢ with own
    · cases isClient
    · exact ⟨isClient, rfl, apart c isClient own⟩
    · exact ⟨isClient, rfl, apart c isClient own⟩
  exact {
    healthy := by
      refine ⟨?_, ?_, ?_, ?_⟩
      · intro standardFd isStandard
        have isOpen := settled.healthy.standard isStandard
        refine settled.file_logout state isOpen rfl ?_
        rintro rfl
        cases isSocket.symm.trans isOpen
      · intro first second file pipe firstOpen secondOpen
        exact settled.healthy.unique (file_of_logout firstOpen)
          (file_of_logout secondOpen)
      · intro other file pipe isOpen
        exact settled.healthy.known (file_of_logout isOpen)
      · intro c isClient
        obtain ⟨wasClient, sameSockfd, apart⟩ := staying isClient
        obtain ⟨connection, isOpen⟩ := settled.healthy.socket wasClient
        rw [sameSockfd]
        exact ⟨connection, settled.file_logout state isOpen rfl apart⟩
    sockets := by
      have sameIds (other : Int) :
          (server.logout fd).main.fdIdList other =
            if other = fd then -1 else server.main.fdIdList other := by
        change Function.update server.main.fdIdList fd (-1) other = _
        rw [Function.update_apply]
      refine ⟨?_, ?_⟩
      · intro other inRange
        rw [sameIds] at inRange
        split_ifs at inRange with here
        · exact absurd inRange (by decide)
        · obtain ⟨connection, isOpen⟩ := settled.sockets.isOpen inRange
          exact ⟨connection, settled.file_logout state isOpen rfl here⟩
      · intro c isClient
        obtain ⟨wasClient, sameSockfd, apart⟩ := staying isClient
        rw [sameSockfd, sameIds, if_neg apart]
        exact settled.sockets.own wasClient
    sound := settled.sound.logout fd
    record := by
      intro c slot
      rw [logout_list isNat]
      unfold deleteClientInfor
      dsimp only
      split_ifs
      · intro recorded
        cases recorded
      · exact settled.record
      · exact settled.record
    wired := by
      refine settled.wired.of_kept
        (fun recorded => (recorded_of_logout isNat recorded).1) id
        (fun recorded => (recorded_of_logout isNat recorded).2.1) ?_
      intro port file isHeld isOpen
      obtain ⟨recorded, _, kept⟩ := recorded_of_logout isNat isHeld
      rw [logout_file_of_kept]
      · exact isOpen
      · intro leaving
        obtain ⟨other, isLeaving, sameFd⟩ := List.mem_map.mp leaving
        have same :=
          settled.wired.distinct (settled.recorded_of_leaving state isLeaving)
            recorded sameFd
        exact kept (same ▸ isLeaving)
      · rintro rfl
        obtain ⟨found, pipe, pipeOpen, isPipe⟩ :=
          settled.wired.file_of_held id recorded
        cases isSocket.symm.trans pipeOpen
        cases isPipe
    known := by
      refine settled.known.of_draws ?_ rfl rfl
      change DrawsFrom server.fds (server.deleteFds (server.fds.close fd))
      rw [deleteFds_eq]
      exact ((DrawsFrom.refl _).close fd).closeAll _ }

end Logout

/-! ## Runs -/

/-- A child of the server is the same when it, or another one, has ended. -/
theorem mem_exitChild
    {index : Nat}
    {child : Child}
    (member : child ∈ (server.exitChild index).children) :
    ∃ old ∈ server.children,
      child = old ∨ child = { old with alive := false } := by
  obtain ⟨k, isChild⟩ := List.getElem?_of_mem member
  change (server.children.modify index _)[k]? = some child at isChild
  rw [List.getElem?_modify, Option.map_eq_map, Option.map_eq_some_iff] at isChild
  obtain ⟨old, isOld, rfl⟩ := isChild
  refine ⟨old, List.mem_of_getElem? isOld, ?_⟩
  split_ifs
  · exact Or.inr rfl
  · exact Or.inl rfl

theorem Settled.exitChild
    (settled : server.Settled)
    (index : Nat) :
    (server.exitChild index).Settled where
  healthy :=
    ⟨settled.healthy.standard, settled.healthy.unique, settled.healthy.known,
      settled.healthy.socket⟩
  sockets := ⟨settled.sockets.isOpen, settled.sockets.own⟩
  sound := settled.sound
  record := settled.record
  wired := ⟨settled.wired.distinct, settled.wired.block, settled.wired.user⟩
  known := by
    refine ⟨settled.known.table, ?_⟩
    intro child member
    obtain ⟨old, isOld, rfl | rfl⟩ := mem_exitChild member
    · exact settled.known.children child isOld
    · have known := settled.known.children old isOld
      exact ⟨known.fds, known.inherited, known.directed⟩

/-- The event is a self-piped command. -/
def SelfPipesAt
    (server : Server) :
    ServerEvent → Prop
  | .input fd input _ => ((server.enter fd).countDown).SelfPipes input
  | _ => False

/-- The client of a connected descriptor. -/
theorem enter_of_connected
    {fd : Int}
    (connected : server.connected fd = true) :
    ((server.enter fd).client.list (server.enter fd).client.id).state = true ∧
      (server.enter fd).main.fdIdList fd = (server.enter fd).client.id := by
  simp only [Server.connected, Bool.and_eq_true, decide_eq_true_eq] at connected
  exact ⟨connected.2, (Int.toNat_of_nonneg connected.1).symm⟩

theorem Settled.step
    {event : ServerEvent}
    (settled : server.Settled)
    (notSelf : ¬ server.SelfPipesAt event)
    (stepped : server.Steps event next) :
    next.Settled := by
  cases stepped.moves with
  | login => exact settled.login
  | @input fd input outside connected =>
      obtain ⟨state, _⟩ := enter_of_connected connected
      exact (settled.enter fd).runShell state outside notSelf
  | @exit fd connected =>
      obtain ⟨state, isId⟩ := enter_of_connected connected
      have counted := (settled.enter fd).countDown state
      refine counted.logout ?_ isId
      exact (ClientStructure.setInfor_state ..).trans state
  | @endOfFile fd connected _ =>
      obtain ⟨state, isId⟩ := enter_of_connected connected
      exact (settled.enter fd).logout state isId
  | childExits index => exact settled.exitChild index

/-- The server is settled at every state of a run without self-piped commands. -/
theorem settled_run
    {path : List (ServerEvent × Server)}
    (isPath : Path Steps initial path)
    (notSelf :
      EveryStep (fun server event => ¬ server.SelfPipesAt event) initial path) :
    (lastState initial path).Settled :=
  (isPath.everyState_of_everyStep
    (fun settled atStep stepped => settled.step atStep stepped)
    settled_initial notSelf).last

end Server

end NpServers.Shell
