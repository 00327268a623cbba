import NpServers.SelectRounds

namespace NpServers.Shell

open DescriptorTable TransitionPath

/-!
# The connections of the clients in the table

`broadcast` writes to the sockets in the client table.  Ids and descriptors are
used again, so the clients are told apart by their connections, each of which has
one socket from its login to its logout.
-/

namespace Server

/-- The connection behind a descriptor. -/
def connectionAt
    (server : Server)
    (fd : Int) : Option Nat :=
  match server.fds.file fd with
  | some (.socket connection) => some connection
  | _ => none

/-- The connections that `broadcast` writes to, in its order. -/
def audience (server : Server) : List Nat :=
  clientIds.filterMap fun i =>
    if (server.client.list i).state then
      server.connectionAt (server.client.list i).sockfd
    else
      none

variable {server before after : Server}

theorem connectionAt_eq_some
    {fd : Int}
    {connection : Nat} :
    server.connectionAt fd = some connection ↔
      server.fds.file fd = some (.socket connection) := by
  unfold connectionAt
  constructor
  · intro isConnection
    split at isConnection
    · rename_i isSocket
      rw [isSocket, Option.some.inj isConnection]
    · cases isConnection
  · intro isSocket
    rw [isSocket]

theorem mem_audience
    {connection : Nat} :
    connection ∈ server.audience ↔
      ∃ i ∈ clientIds,
        (server.client.list i).state = true ∧
          server.fds.file (server.client.list i).sockfd =
            some (.socket connection) := by
  unfold audience
  rw [List.mem_filterMap]
  constructor
  · rintro ⟨i, inRange, heard⟩
    split_ifs at heard with state
    exact ⟨i, inRange, state, connectionAt_eq_some.mp heard⟩
  · rintro ⟨i, inRange, state, isSocket⟩
    refine ⟨i, inRange, ?_⟩
    rw [if_pos state]
    exact connectionAt_eq_some.mpr isSocket

/-- The audience changes only with the sessions and their descriptors. -/
theorem audience_congr
    (state :
      ∀ i, (after.client.list i).state = (before.client.list i).state)
    (sockfd :
      ∀ i, (after.client.list i).sockfd = (before.client.list i).sockfd)
    (kept :
      ∀ i ∈ clientIds,
        (before.client.list i).state = true →
        after.connectionAt (before.client.list i).sockfd =
          before.connectionAt (before.client.list i).sockfd) :
    after.audience = before.audience := by
  unfold audience
  refine List.filterMap_congr ?_
  intro i inRange
  rw [state, sockfd]
  split_ifs with isClient
  · exact kept i inRange isClient
  · rfl

/-! ## Sockets come from logins only -/

/-- Every socket of `after` is one of `before`. -/
structure SocketsOf (before after : Server) : Prop where
  isOld :
    ∀ {fd connection},
      after.fds.file fd = some (.socket connection) →
      before.fds.file fd = some (.socket connection)

theorem SocketsOf.refl (server : Server) : SocketsOf server server :=
  ⟨fun isSocket => isSocket⟩

theorem SocketsOf.trans
    {first second third : Server}
    (sockets : SocketsOf first second)
    (socketsLater : SocketsOf second third) :
    SocketsOf first third :=
  ⟨fun isSocket => sockets.isOld (socketsLater.isOld isSocket)⟩

theorem SocketsOf.of_fds
    (same : after.fds = before.fds) :
    SocketsOf before after := by
  refine ⟨?_⟩
  intro fd connection isSocket
  rw [same] at isSocket
  exact isSocket

theorem SocketsOf.of_close
    {fd : Int}
    (closes : after.fds = before.fds.close fd) :
    SocketsOf before after := by
  refine ⟨?_⟩
  intro other connection isSocket
  rw [closes, close_file, Function.update_apply] at isSocket
  split_ifs at isSocket
  exact isSocket

theorem SocketsOf.of_openFile
    {file : File}
    (notSocket : ∀ connection, file ≠ .socket connection)
    (opens : after.fds = before.fds.openFile file) :
    SocketsOf before after := by
  refine ⟨?_⟩
  intro other connection isSocket
  rw [opens, openFile_file, Function.update_apply] at isSocket
  split_ifs at isSocket
  · exact absurd (Option.some.inj isSocket) (notSocket connection)
  · exact isSocket

theorem socketsOf_pipe (server : Server) : SocketsOf server server.pipe := by
  let between : Server :=
    { server with fds := server.fds.openFile (.readEnd server.nextPipe) }
  have first : SocketsOf server between :=
    .of_openFile (fun _ => File.noConfusion) rfl
  have second : SocketsOf between server.pipe :=
    .of_openFile (fun _ => File.noConfusion) rfl
  exact first.trans second

theorem socketsOf_openOutput
    (line : Command)
    (vars : Vars)
    (server : Server) :
    SocketsOf server (openOutput line vars server).2 := by
  unfold openOutput
  dsimp only
  split_ifs
  · exact socketsOf_pipe server
  · exact .refl server
  · exact socketsOf_pipe server
  · exact .refl server

theorem socketsOf_takeInput
    (line : Command)
    (server : Server) :
    SocketsOf server (server.takeInput line) := by
  unfold takeInput
  split_ifs
  · let between : Server :=
      { server with
        fds :=
          server.fds.close
            (server.infor.list server.infor.outputPoint.toNat).writeFd }
    have first : SocketsOf server between := .of_close rfl
    exact first.trans (.of_close rfl)
  · exact .of_close rfl
  · exact .refl server

theorem socketsOf_storeUserPipe
    (line : Command)
    (vars : Vars)
    (server : Server) :
    SocketsOf server (server.storeUserPipe line vars) := by
  unfold storeUserPipe
  split_ifs
  · exact .of_close rfl
  · exact .refl server

theorem socketsOf_storeCross
    (line : Command)
    (vars : Vars)
    (server : Server) :
    SocketsOf server (server.storeCross line vars) := by
  unfold storeCross
  split_ifs
  · exact .of_fds rfl
  · exact .refl server

theorem socketsOf_lastStore
    (line : Command)
    (fdRedir : Int)
    (vars : Vars)
    (server : Server) :
    SocketsOf server (server.lastStore line fdRedir vars) := by
  unfold lastStore
  split_ifs
  · exact socketsOf_storeCross line vars server
  · exact .of_close rfl
  · exact socketsOf_storeUserPipe line vars server
  · exact .refl server

theorem socketsOf_singleCmd
    (line : Command)
    (outside : Outside)
    (server : Server) :
    SocketsOf server (server.singleCmd line outside) := by
  have announced : SocketsOf server (server.announce line) :=
    .of_fds (sameTables_announce server line).fds
  have opened :=
    socketsOf_openOutput line (singleVars outside) (server.announce line)
  have forked :
      SocketsOf (openOutput line (singleVars outside) (server.announce line)).2
        (singleFork line outside server).2 :=
    .of_fds (sameTables_fork ..).fds
  have taken := socketsOf_takeInput line (singleFork line outside server).2
  have connected : SocketsOf server (singleConnected line outside server).2 :=
    ((announced.trans opened).trans forked).trans taken
  have stored :
      SocketsOf (singleConnected line outside server).2
        ((singleConnected line outside server).2.singleStore line
          (singleConnected line outside server).1) := by
    unfold singleStore
    split_ifs
    · exact socketsOf_storeCross ..
    · exact socketsOf_storeUserPipe ..
    · exact .refl _
  exact (connected.trans stored).trans (.of_fds (sameTables_waitSince ..).fds)

theorem socketsOf_closeAndConnectFd
    (current last : Nat)
    (fd : PipeFds)
    (exFd0 : Int)
    (server : Server) :
    SocketsOf server
      { server with
        fds := closeAndConnectFd current 0 last fd exFd0 .parent server.fds } := by
  unfold closeAndConnectFd connectWriteEnd connectReadEnd
  dsimp only
  split_ifs
  · let between : Server :=
      { server with fds := server.fds.close fd.writeFd }
    have first : SocketsOf server between := .of_close rfl
    exact first.trans (.of_close rfl)
  · exact .of_close rfl
  · exact .of_close rfl
  · exact .refl server

theorem socketsOf_runStage
    (line : Command)
    (outside : Outside)
    (cmdNum : Nat)
    (fdRedir : Int)
    (state : Vars × Server)
    (i : Nat) :
    SocketsOf state.2 (runStage line outside cmdNum fdRedir state i).2 := by
  have opened :
      SocketsOf state.2 (stageOpened line cmdNum state.1 i state.2).2 := by
    unfold stageOpened
    split_ifs
    · exact socketsOf_pipe state.2
    · exact socketsOf_openOutput line state.1 state.2
  have forked :
      SocketsOf (stageOpened line cmdNum state.1 i state.2).2
        (stageForked line outside cmdNum fdRedir state.1 i state.2).2 :=
    .of_fds (sameTables_fork ..).fds
  have connected :
      SocketsOf (stageForked line outside cmdNum fdRedir state.1 i state.2).2
        (stageConnected line outside cmdNum fdRedir state.1 i state.2).2 := by
    unfold stageConnected
    dsimp only
    split_ifs
    · exact socketsOf_takeInput ..
    · exact socketsOf_lastStore ..
    · exact .refl _
  exact
    ((opened.trans forked).trans connected).trans
      (socketsOf_closeAndConnectFd ..)

theorem socketsOf_ordinaryPipe
    (line : Command)
    (outside : Outside)
    (cmdNum : Nat)
    (server : Server) :
    SocketsOf server (server.ordinaryPipe line outside cmdNum) := by
  unfold ordinaryPipe
  split_ifs
  · exact .of_fds rfl
  · have opened : SocketsOf server (server.openRedir line cmdNum) := by
      unfold openRedir
      split_ifs
      · exact .of_openFile (fun _ => File.noConfusion) rfl
      · exact .refl server
    have announced :
        SocketsOf (server.openRedir line cmdNum)
          ((server.openRedir line cmdNum).announce line) :=
      .of_fds (sameTables_announce _ line).fds
    have stages
        (indices : List Nat)
        (state : Vars × Server) :
        SocketsOf state.2
          (indices.foldl
            (runStage line outside cmdNum server.fds.lowestFree) state).2 := by
      induction indices generalizing state with
      | nil => exact .refl state.2
      | cons i rest inductionHypothesis =>
          exact (socketsOf_runStage ..).trans (inductionHypothesis _)
    exact
      ((opened.trans announced).trans
        (stages (List.range cmdNum)
          (pipelineVars outside,
            (server.openRedir line cmdNum).announce line))).trans
        (.of_fds (sameTables_waitSince ..).fds)

/-- A line opens no socket. -/
theorem socketsOf_runShell
    (input : Input)
    (outside : Outside)
    (server : Server) :
    SocketsOf server (server.runShell input outside) := by
  have freed {ran : Server} (sockets : SocketsOf server.countDown ran) :
      SocketsOf server ran.freeRecord :=
    ⟨fun isSocket =>
      (sockets.trans (.of_fds (freeRecord_fds ran))).isOld isSocket⟩
  cases input with
  | blank => exact .refl server
  | talk => exact .of_fds rfl
  | builtin => exact freed (.of_fds rfl)
  | name name =>
      exact freed (.of_fds (sameRecords_cmdName server.countDown name).fds)
  | single line =>
      exact freed (socketsOf_singleCmd line outside server.countDown)
  | pipeline line stages =>
      exact freed
        (socketsOf_ordinaryPipe line outside line.cmdNum server.countDown)

/-! ## The seating -/

/--
Each client has a connection of its own, counted by `nextConnection`, and the
ids are those of the table.
-/
structure Seating (server : Server) : Prop where
  listed :
    ∀ {c}, (server.client.list c).state = true → c ∈ clientIds
  minId : server.main.minId ∈ clientIds
  known :
    ∀ {fd connection},
      server.fds.file fd = some (.socket connection) →
      connection < server.nextConnection
  apart :
    ∀ {c d connection},
      (server.client.list c).state = true →
      (server.client.list d).state = true →
      server.fds.file (server.client.list c).sockfd =
        some (.socket connection) →
      server.fds.file (server.client.list d).sockfd =
        some (.socket connection) →
      c = d

/-- The connection of a client of the table. -/
theorem Seating.seat
    (seating : server.Seating)
    (sockets : server.SessionSockets)
    {c : Nat}
    (state : (server.client.list c).state = true) :
    ∃ connection < server.nextConnection,
      server.fds.file (server.client.list c).sockfd =
        some (.socket connection) := by
  have isSession : 0 ≤ server.main.fdIdList (server.client.list c).sockfd := by
    rw [sockets.own state]
    exact Int.natCast_nonneg c
  obtain ⟨connection, isSocket⟩ := sockets.isOpen isSession
  exact ⟨connection, seating.known isSocket, isSocket⟩

/-- Nobody is in the audience twice. -/
theorem Seating.audience_nodup
    (seating : server.Seating) :
    server.audience.Nodup := by
  unfold audience
  refine List.Nodup.filterMap ?_ (clientIds_increasing.imp fun less => less.ne)
  intro c d connection isFirst isSecond
  simp only [Option.mem_def] at isFirst isSecond
  split_ifs at isFirst isSecond with state otherState
  exact seating.apart state otherState (connectionAt_eq_some.mp isFirst)
    (connectionAt_eq_some.mp isSecond)

theorem seating_initial : initial.Seating where
  listed := by
    intro c isClient
    cases isClient
  minId := by decide
  known := by
    intro fd connection isSocket
    simp only [initial, openFile_file, Function.update_apply] at isSocket
    split_ifs at isSocket <;> cases isSocket
  apart := by
    intro c d connection isClient
    cases isClient

/-- A step that keeps the sessions and their sockets keeps the seating. -/
theorem Seating.of_kept
    (seating : before.Seating)
    (sockets : before.SessionSockets)
    (same : MainState.SameSessions after.main before.main)
    (sameConnection : after.nextConnection = before.nextConnection)
    (socketsOf : SocketsOf before after)
    (kept :
      ∀ {fd connection},
        before.fds.file fd = some (.socket connection) →
        after.fds.file fd = some (.socket connection)) :
    after.Seating ∧ after.audience = before.audience := by
  have seat {c : Nat} (state : (after.client.list c).state = true) :
      ∃ connection < before.nextConnection,
        before.fds.file (after.client.list c).sockfd =
          some (.socket connection) := by
    have sameSockfd :
        (after.client.list c).sockfd = (before.client.list c).sockfd :=
      same.sockfd c
    rw [sameSockfd]
    exact seating.seat sockets ((same.state c).symm.trans state)
  have before_of_after {c connection : Nat}
      (state : (after.client.list c).state = true)
      (isSocket :
        after.fds.file (after.client.list c).sockfd =
          some (.socket connection)) :
      before.fds.file (before.client.list c).sockfd =
        some (.socket connection) := by
    obtain ⟨own, _, isOwn⟩ := seat state
    have sameSockfd :
        (after.client.list c).sockfd = (before.client.list c).sockfd :=
      same.sockfd c
    rw [← sameSockfd, isOwn]
    exact (kept isOwn).symm.trans isSocket
  refine ⟨⟨?_, ?_, ?_, ?_⟩, ?_⟩
  · intro c state
    exact seating.listed ((same.state c).symm.trans state)
  · rw [same.minId]
    exact seating.minId
  · intro fd connection isSocket
    rw [sameConnection]
    exact seating.known (socketsOf.isOld isSocket)
  · intro c d connection state otherState isSocket otherSocket
    exact seating.apart ((same.state c).symm.trans state)
      ((same.state d).symm.trans otherState) (before_of_after state isSocket)
      (before_of_after otherState otherSocket)
  · refine audience_congr same.state same.sockfd ?_
    intro i _ state
    obtain ⟨connection, _, isSocket⟩ := seating.seat sockets state
    rw [connectionAt_eq_some.mpr isSocket, connectionAt_eq_some.mpr (kept isSocket)]

/-! ## The seating over the events of the server -/

/-- A line keeps the room. -/
theorem Seating.runShell
    (seating : server.Seating)
    (settled : server.Settled)
    (state : (server.client.list server.client.id).state = true)
    {input : Input}
    (outside : Outside)
    (notSelf : ¬ server.countDown.SelfPipes input) :
    (server.runShell input outside).Seating ∧
      (server.runShell input outside).audience = server.audience := by
  have keeps := settled.keepsFiles state outside notSelf
  exact
    seating.of_kept settled.sockets
      (sameSessions_runShell input outside server).1 keeps.nextConnection
      (socketsOf_runShell input outside server)
      fun isSocket => keeps.file isSocket rfl

/-- The socket of the new client. -/
theorem login_file_new (server : Server) :
    server.login.fds.file
        (server.login.client.list server.main.minId).sockfd =
      some (.socket server.nextConnection) := by
  rw [login_list, if_pos rfl]
  exact Function.update_self ..

/-- The sockets of the others. -/
theorem Seating.login_file_other
    (seating : server.Seating)
    (sockets : server.SessionSockets)
    {c : Nat}
    (other : c ≠ server.main.minId)
    (state : (server.client.list c).state = true) :
    server.login.fds.file (server.login.client.list c).sockfd =
      server.fds.file (server.client.list c).sockfd := by
  obtain ⟨connection, _, isSocket⟩ := seating.seat sockets state
  rw [login_list, if_neg other, isSocket]
  exact openFile_file_of_open isSocket _

/-- A login keeps the seating. -/
theorem Seating.login
    (seating : server.Seating)
    (sockets : server.SessionSockets) :
    server.login.Seating := by
  have otherState {c : Nat}
      (other : c ≠ server.main.minId)
      (state : (server.login.client.list c).state = true) :
      (server.client.list c).state = true := by
    rw [login_list, if_neg other] at state
    exact state
  -- the number of the new connection is not in use
  have notNew {c connection : Nat}
      (other : c ≠ server.main.minId)
      (state : (server.login.client.list c).state = true)
      (isSocket :
        server.login.fds.file (server.login.client.list c).sockfd =
          some (.socket connection)) :
      connection < server.nextConnection ∧
        server.fds.file (server.client.list c).sockfd =
          some (.socket connection) := by
    have wasState := otherState other state
    rw [seating.login_file_other sockets other wasState] at isSocket
    obtain ⟨own, known, isOwn⟩ := seating.seat sockets wasState
    cases isSocket.symm.trans isOwn
    exact ⟨known, isSocket⟩
  refine ⟨?_, ?_, ?_, ?_⟩
  · intro c state
    by_cases isNew : c = server.main.minId
    · rw [isNew]
      exact seating.minId
    · exact seating.listed (otherState isNew state)
  · change
      (clientIds.find? fun i =>
        !(server.login.client.list i).state).getD server.main.minId ∈ clientIds
    cases free :
        clientIds.find? fun i => !(server.login.client.list i).state with
    | none => exact seating.minId
    | some i => exact List.mem_of_find?_eq_some free
  · intro fd connection isSocket
    change
      (server.fds.openFile (.socket server.nextConnection)).file fd = _
        at isSocket
    change connection < server.nextConnection + 1
    rw [openFile_file, Function.update_apply] at isSocket
    split_ifs at isSocket
    · cases isSocket
      exact Nat.lt_succ_self _
    · exact Nat.lt_succ_of_lt (seating.known isSocket)
  · intro c d connection state stateOther isSocket socketOther
    by_cases isNew : c = server.main.minId
    · by_cases otherIsNew : d = server.main.minId
      · rw [isNew, otherIsNew]
      · obtain ⟨known, _⟩ := notNew otherIsNew stateOther socketOther
        rw [isNew, login_file_new] at isSocket
        cases isSocket
        exact absurd known (Nat.lt_irrefl _)
    · obtain ⟨known, wasSocket⟩ := notNew isNew state isSocket
      by_cases otherIsNew : d = server.main.minId
      · rw [otherIsNew, login_file_new] at socketOther
        cases socketOther
        exact absurd known (Nat.lt_irrefl _)
      · exact seating.apart (otherState isNew state)
          (otherState otherIsNew stateOther) wasSocket
          (notNew otherIsNew stateOther socketOther).2

/--
The room after a login: the new connection, and all but the client whose slot was
taken from it.
-/
theorem Seating.mem_audience_login
    (seating : server.Seating)
    (sockets : server.SessionSockets)
    (connection : Nat) :
    connection ∈ server.login.audience ↔
      connection = server.nextConnection ∨
        connection ∈ server.audience ∧
          ¬ ((server.client.list server.main.minId).state = true ∧
            server.fds.file (server.client.list server.main.minId).sockfd =
              some (.socket connection)) := by
  rw [mem_audience, mem_audience]
  constructor
  · rintro ⟨i, inRange, state, isSocket⟩
    by_cases isNew : i = server.main.minId
    · rw [isNew, login_file_new] at isSocket
      cases isSocket
      exact .inl rfl
    · rw [login_list, if_neg isNew] at state
      rw [seating.login_file_other sockets isNew state] at isSocket
      refine .inr ⟨⟨i, inRange, state, isSocket⟩, ?_⟩
      rintro ⟨stateOther, socketOther⟩
      exact isNew (seating.apart state stateOther isSocket socketOther)
  · rintro (rfl | ⟨⟨i, inRange, state, isSocket⟩, notTaken⟩)
    · refine ⟨server.main.minId, seating.minId, ?_, server.login_file_new⟩
      rw [login_list, if_pos rfl]
      rfl
    · have other : i ≠ server.main.minId := by
        rintro rfl
        exact notTaken ⟨state, isSocket⟩
      refine ⟨i, inRange, ?_, ?_⟩
      · rw [login_list, if_neg other]
        exact state
      · rw [seating.login_file_other sockets other state]
        exact isSocket

section Logout

variable {fd : Int}

/-- The sockets of the others after a logout. -/
theorem Settled.logout_file_other
    (settled : server.Settled)
    (state : (server.client.list server.client.id).state = true)
    (isId : server.main.fdIdList fd = server.client.id)
    {other connection : Nat}
    (isOther : other ≠ server.client.id)
    (stateOther : (server.client.list other).state = true)
    (isSocket :
      server.fds.file (server.client.list other).sockfd =
        some (.socket connection)) :
    (server.logout fd).fds.file (server.client.list other).sockfd =
      some (.socket connection) := by
  refine settled.file_logout state isSocket rfl ?_
  intro sameFd
  have isOwn := settled.sockets.own stateOther
  rw [sameFd, isId] at isOwn
  exact isOther (by exact_mod_cast isOwn.symm)

/-- The slots after a logout. -/
theorem logout_slot
    (isId : server.main.fdIdList fd = server.client.id)
    (c : Nat) :
    ((server.logout fd).client.list c).state =
        (decide (c ≠ server.client.id) && (server.client.list c).state) ∧
      (c ≠ server.client.id →
        ((server.logout fd).client.list c).sockfd =
          (server.client.list c).sockfd) := by
  have isNat : (server.main.fdIdList fd).toNat = server.client.id := by
    rw [isId]
    rfl
  rw [logout_list isNat]
  unfold deleteClientInfor
  dsimp only
  by_cases isLeaving : c = server.client.id
  · rw [if_pos isLeaving]
    exact ⟨by simp [isLeaving, ClientInfor.vacant], fun other => absurd isLeaving other⟩
  · rw [if_neg isLeaving]
    split_ifs
    · exact ⟨by simp [isLeaving], fun _ => rfl⟩
    · exact ⟨by simp [isLeaving], fun _ => rfl⟩

/-- A client that is still there after a logout. -/
theorem stays_of_logout
    (isId : server.main.fdIdList fd = server.client.id)
    {c : Nat}
    (state : ((server.logout fd).client.list c).state = true) :
    c ≠ server.client.id ∧
      (server.client.list c).state = true ∧
        ((server.logout fd).client.list c).sockfd =
          (server.client.list c).sockfd := by
  obtain ⟨sameState, sameSockfd⟩ := logout_slot isId c
  rw [sameState] at state
  simp only [Bool.and_eq_true, decide_eq_true_eq] at state
  exact ⟨state.1, state.2, sameSockfd state.1⟩

/-- A logout keeps the seating. -/
theorem Seating.logout
    (seating : server.Seating)
    (state : (server.client.list server.client.id).state = true)
    (isId : server.main.fdIdList fd = server.client.id) :
    (server.logout fd).Seating := by
  have wasSocket {c connection : Nat}
      (stays : ((server.logout fd).client.list c).state = true)
      (isSocket :
        (server.logout fd).fds.file
            ((server.logout fd).client.list c).sockfd =
          some (.socket connection)) :
      server.fds.file (server.client.list c).sockfd =
        some (.socket connection) := by
    obtain ⟨_, _, sameSockfd⟩ := stays_of_logout isId stays
    rw [sameSockfd] at isSocket
    exact file_of_logout isSocket
  refine ⟨?_, ?_, ?_, ?_⟩
  · intro c stays
    exact seating.listed (stays_of_logout isId stays).2.1
  · change
      (if server.main.fdIdList fd < server.main.minId then
        (server.main.fdIdList fd).toNat
      else
        server.main.minId) ∈ clientIds
    split_ifs
    · rw [isId]
      exact seating.listed state
    · exact seating.minId
  · intro other connection isSocket
    exact seating.known (file_of_logout isSocket)
  · intro c d connection stays otherStays isSocket otherSocket
    exact seating.apart (stays_of_logout isId stays).2.1
      (stays_of_logout isId otherStays).2.1 (wasSocket stays isSocket)
      (wasSocket otherStays otherSocket)

/-- The room after a logout: everybody but the client of the slot. -/
theorem Seating.mem_audience_logout
    (seating : server.Seating)
    (settled : server.Settled)
    (state : (server.client.list server.client.id).state = true)
    (isId : server.main.fdIdList fd = server.client.id)
    (connection : Nat) :
    connection ∈ (server.logout fd).audience ↔
      connection ∈ server.audience ∧
        server.fds.file server.sockfd ≠ some (.socket connection) := by
  rw [mem_audience, mem_audience]
  constructor
  · rintro ⟨i, inRange, stays, isSocket⟩
    obtain ⟨isOther, stateOther, sameSockfd⟩ := stays_of_logout isId stays
    rw [sameSockfd] at isSocket
    have wasSocket := file_of_logout isSocket
    refine ⟨⟨i, inRange, stateOther, wasSocket⟩, ?_⟩
    intro isOwn
    exact isOther (seating.apart stateOther state wasSocket isOwn)
  · rintro ⟨⟨i, inRange, stateOther, isSocket⟩, notOwn⟩
    have isOther : i ≠ server.client.id := by
      rintro rfl
      exact notOwn isSocket
    obtain ⟨sameState, sameSockfd⟩ := logout_slot isId i
    refine ⟨i, inRange, ?_, ?_⟩
    · rw [sameState]
      simp only [Bool.and_eq_true, decide_eq_true_eq]
      exact ⟨isOther, stateOther⟩
    · rw [sameSockfd isOther]
      exact settled.logout_file_other state isId isOther stateOther isSocket

end Logout

end Server

end NpServers.Shell
