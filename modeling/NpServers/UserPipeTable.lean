import NpServers.ServerRun

namespace NpServers.Shell

open CrossPipe TransitionPath

/-!
# The user-pipe table over runs of the server

An entry `list[i].user_pipe[j]` holds a descriptor while client `j` has piped to
client `i`.  Lines fill and clear entries in two functions, a login resets a
row, and a logout clears a row and a column.  Entries therefore only exist
between connected clients, and a client with a reused id finds none of its
predecessor.
-/

namespace Server

/-- `list[receiver].user_pipe[sender]`. -/
def userPipe
    (server : Server)
    (receiver sender : Nat) : Int :=
  (server.client.list receiver).userPipe sender

/-- The id has a client. -/
def loggedIn
    (server : Server)
    (i : Nat) : Bool :=
  (server.client.list i).state

/-- `list[i].name`. -/
def nickname
    (server : Server)
    (i : Nat) : String :=
  (server.client.list i).name

/-! ## What a line does to the table -/

/--
A line keeps or clears every entry, except that it may fill the entry from its
client to the client named by `>`.  It keeps every nickname, except that its
client may get one that no other connected client has.
-/
structure TableMove
    (userOutId : Nat)
    (before after : Server) : Prop where
  id : after.client.id = before.client.id
  minId : after.main.minId = before.main.minId
  loggedIn : ∀ c, after.loggedIn c = before.loggedIn c
  entry :
    ∀ receiver sender,
      after.userPipe receiver sender = before.userPipe receiver sender ∨
        after.userPipe receiver sender < 0 ∨
        userOutId ≠ 0 ∧ receiver = userOutId ∧
          sender = before.client.id ∧ before.loggedIn receiver = true
  name :
    ∀ c,
      after.nickname c = before.nickname c ∨
        c = before.client.id ∧
          ∀ other ∈ clientIds,
            other ≠ c →
            before.loggedIn other = true →
            before.nickname other ≠ after.nickname c

variable {line : Command}
variable {userOutId : Nat}
variable {before between after : Server}

theorem TableMove.of_main
    (same : after.main = before.main) :
    TableMove userOutId before after := by
  have sameClient : after.client = before.client :=
    congrArg MainState.client same
  refine ⟨?_, ?_, ?_, ?_, ?_⟩
  · rw [sameClient]
  · rw [same]
  · intro c
    unfold Server.loggedIn
    rw [sameClient]
  · intro receiver sender
    left
    unfold userPipe
    rw [sameClient]
  · intro c
    left
    unfold nickname
    rw [sameClient]

theorem TableMove.trans
    (first : TableMove userOutId before between)
    (second : TableMove userOutId between after) :
    TableMove userOutId before after where
  id := second.id.trans first.id
  minId := second.minId.trans first.minId
  loggedIn := fun c => (second.loggedIn c).trans (first.loggedIn c)
  entry := by
    intro receiver sender
    rcases second.entry receiver sender with same | cleared | filled
    · rw [same]
      exact first.entry receiver sender
    · exact Or.inr (Or.inl cleared)
    · rw [first.id, first.loggedIn] at filled
      exact Or.inr (Or.inr filled)
  name := by
    intro c
    rcases second.name c with same | ⟨own, isNew⟩
    · rw [same]
      exact first.name c
    · rw [first.id] at own
      refine Or.inr ⟨own, ?_⟩
      intro other inRange different isClient
      rw [← first.loggedIn] at isClient
      have notTaken := isNew other inRange different isClient
      rcases first.name other with kept | ⟨isOwn, _⟩
      · rwa [kept] at notTaken
      · exact absurd (isOwn.trans own.symm) different

/-- An assignment to one entry. -/
theorem tableMove_setUserPipe
    {receiver sender : Nat}
    {fd : Int}
    {server : Server}
    (allowed :
      fd < 0 ∨
        userOutId ≠ 0 ∧ receiver = userOutId ∧
          sender = server.client.id ∧ server.loggedIn receiver = true) :
    TableMove userOutId server (server.setUserPipe receiver sender fd) where
  id := rfl
  minId := rfl
  loggedIn := server.client.setUserPipe_state receiver sender fd
  entry := by
    intro r s
    change ((server.client.setUserPipe receiver sender fd).list r).userPipe s =
        server.userPipe r s ∨
      ((server.client.setUserPipe receiver sender fd).list r).userPipe s < 0 ∨ _
    rw [ClientStructure.setUserPipe_userPipe]
    split_ifs with here
    · obtain ⟨rfl, rfl⟩ := here
      exact Or.inr allowed
    · exact Or.inl rfl
  name := by
    intro c
    left
    exact server.client.setUserPipe_name receiver sender fd c

/-- The parent clears the entry of the input. -/
theorem tableMove_takeInput
    (line : Command)
    (server : Server) :
    TableMove line.userOutId server (server.takeInput line) := by
  unfold takeInput
  split_ifs
  · exact .of_main rfl
  · have closed :
        TableMove line.userOutId server
          { server with
            fds := server.fds.close (server.self.userPipe line.userInId) } :=
      .of_main rfl
    exact closed.trans (tableMove_setUserPipe (Or.inl (by decide)))
  · exact .of_main rfl

/-- The parent fills the entry of the output. -/
theorem tableMove_storeUserPipe
    (given : line.userOutId ≠ 0)
    (vars : Vars)
    (server : Server) :
    TableMove line.userOutId server (server.storeUserPipe line vars) := by
  unfold storeUserPipe
  split_ifs with ready
  · have closed :
        TableMove line.userOutId server
          { server with fds := server.fds.close vars.fd.writeFd } :=
      .of_main rfl
    refine closed.trans (tableMove_setUserPipe (Or.inr ⟨given, rfl, rfl, ?_⟩))
    simp only [ClientStructure.userOutReady, Bool.and_eq_true] at ready
    exact ready.1.2
  · exact .of_main rfl

theorem tableMove_setInfor
    (server : Server)
    (infor : CrossPipe) :
    TableMove userOutId server (server.setInfor infor) where
  id := rfl
  minId := rfl
  loggedIn := server.client.setInfor_state infor
  entry := by
    intro receiver sender
    left
    exact congrFun (server.client.setInfor_userPipe infor receiver) sender
  name := by
    intro c
    left
    exact server.client.setInfor_name infor c

theorem tableMove_storeCross
    (vars : Vars)
    (server : Server) :
    TableMove line.userOutId server (server.storeCross line vars) := by
  unfold storeCross
  split_ifs
  · exact tableMove_setInfor server _
  · exact .of_main rfl

theorem tableMove_singleStore
    (vars : Vars)
    (server : Server) :
    TableMove line.userOutId server (server.singleStore line vars) := by
  unfold singleStore
  split_ifs with cross given
  · exact tableMove_storeCross vars server
  · exact tableMove_storeUserPipe given vars server
  · exact .of_main rfl

theorem tableMove_lastStore
    (fdRedir : Int)
    (vars : Vars)
    (server : Server) :
    TableMove line.userOutId server (server.lastStore line fdRedir vars) := by
  unfold lastStore
  split_ifs with cross file given
  · exact tableMove_storeCross vars server
  · exact .of_main rfl
  · exact tableMove_storeUserPipe given vars server
  · exact .of_main rfl

/-- `single_cmd`. -/
theorem tableMove_singleCmd
    (line : Command)
    (outside : Outside)
    (server : Server) :
    TableMove line.userOutId server (server.singleCmd line outside) := by
  have forked :
      TableMove line.userOutId server (singleFork line outside server).2 := by
    apply TableMove.of_main
    refine (sameTables_fork ..).main.trans ?_
    exact (openOutput_main ..).trans (sameTables_announce server line).main
  have connected := forked.trans (tableMove_takeInput line _)
  have stored := connected.trans
    (tableMove_singleStore (singleConnected line outside server).1 _)
  exact stored.trans (.of_main (sameTables_waitSince ..).main)

/-- One round of the loop in `ordinary_pipe`. -/
theorem tableMove_runStage
    (line : Command)
    (outside : Outside)
    (cmdNum : Nat)
    (fdRedir : Int)
    (state : Vars × Server)
    (i : Nat) :
    TableMove line.userOutId state.2
      (runStage line outside cmdNum fdRedir state i).2 := by
  have forked :
      TableMove line.userOutId state.2
        (stageForked line outside cmdNum fdRedir state.1 i state.2).2 :=
    .of_main (stageForked_main ..)
  have connected :
      TableMove line.userOutId state.2
        (stageConnected line outside cmdNum fdRedir state.1 i state.2).2 := by
    unfold stageConnected
    dsimp only
    split_ifs
    · exact forked.trans (tableMove_takeInput line _)
    · exact forked.trans (tableMove_lastStore fdRedir _ _)
    · exact forked
  exact connected.trans (.of_main rfl)

theorem tableMove_runStages
    (line : Command)
    (outside : Outside)
    (cmdNum : Nat)
    (fdRedir : Int)
    (server : Server)
    (count : Nat) :
    TableMove line.userOutId server
      (runStages line outside cmdNum fdRedir server count).2 := by
  induction count with
  | zero =>
      exact .of_main rfl
  | succ count inductionHypothesis =>
      rw [runStages_succ]
      exact inductionHypothesis.trans (tableMove_runStage ..)

/-- `ordinary_pipe`. -/
theorem tableMove_ordinaryPipe
    (line : Command)
    (outside : Outside)
    (cmdNum : Nat)
    (server : Server) :
    TableMove line.userOutId server (server.ordinaryPipe line outside cmdNum) := by
  unfold ordinaryPipe
  split_ifs
  · exact .of_main rfl
  · have started : TableMove line.userOutId server (server.loopStart line cmdNum) :=
      .of_main (loopStart_frame line cmdNum server).main
    have looped := started.trans
      (tableMove_runStages line outside cmdNum server.fds.lowestFree _ cmdNum)
    exact looped.trans (.of_main (sameTables_waitSince ..).main)

theorem tableMove_cmdName
    (name : String)
    (server : Server) :
    TableMove userOutId server (server.cmdName name) := by
  unfold cmdName
  split_ifs with taken
  · exact .of_main rfl
  · have sameRow (c : Nat) :
        (Function.update server.client.list server.client.id
            { server.self with name := name } c).state =
            (server.client.list c).state ∧
          (Function.update server.client.list server.client.id
            { server.self with name := name } c).userPipe =
            (server.client.list c).userPipe := by
      by_cases own : c = server.client.id
      · subst own
        simp [self]
      · simp [own]
    refine ⟨rfl, rfl, fun c => (sameRow c).1, fun receiver sender => ?_,
      fun c => ?_⟩
    · left
      exact congrFun (sameRow receiver).2 sender
    · change (Function.update server.client.list server.client.id _ c).name = _ ∨
        _ ∧ ∀ other ∈ clientIds, _ → _ → _ ≠
          (Function.update server.client.list server.client.id _ c).name
      by_cases own : c = server.client.id
      · subst own
        rw [Function.update_self]
        refine Or.inr ⟨rfl, ?_⟩
        intro other inRange different isClient same
        apply taken
        rw [List.any_eq_true]
        refine ⟨other, inRange, ?_⟩
        simp only [Bool.and_eq_true, decide_eq_true_eq]
        exact ⟨⟨different, isClient⟩, same.symm⟩
      · rw [Function.update_of_ne own]
        exact Or.inl rfl

theorem tableMove_freeRecord
    (server : Server) :
    TableMove userOutId server server.freeRecord := by
  unfold freeRecord
  split_ifs
  · exact tableMove_setInfor server _
  · exact .of_main rfl

end Server

/-- The id of `>`, zero for a line that `single_cmd` or `ordinary_pipe` does not run. -/
def Input.userOutId : Input → Nat
  | .single line | .pipeline line _ => line.userOutId
  | _ => 0

namespace Server

theorem tableMove_dispatch
    (input : Input)
    (outside : Outside)
    (server : Server) :
    TableMove input.userOutId server (server.dispatch input outside) := by
  cases input with
  | blank => exact .of_main rfl
  | talk => exact .of_main rfl
  | builtin => exact .of_main rfl
  | name name => exact tableMove_cmdName name server
  | single line => exact tableMove_singleCmd line outside server
  | pipeline line stages =>
      exact tableMove_ordinaryPipe line outside line.cmdNum server

/-- `run_shell`. -/
theorem tableMove_runShell
    (input : Input)
    (outside : Outside)
    (server : Server) :
    TableMove input.userOutId server (server.runShell input outside) := by
  have counted (userOutId : Nat) :
      TableMove userOutId server server.countDown :=
    tableMove_setInfor server _
  have finished (input : Input) :
      TableMove input.userOutId server
        (server.countDown.dispatch input outside).freeRecord :=
    ((counted _).trans (tableMove_dispatch input outside _)).trans
      (tableMove_freeRecord _)
  cases input with
  | blank => exact .of_main rfl
  | talk => exact counted _
  | builtin => exact finished .builtin
  | name name => exact finished (.name name)
  | single line => exact finished (.single line)
  | pipeline line stages => exact finished (.pipeline line stages)

/-! ## What an event does to the table -/

/-- The id of the client that the event logs out. -/
def logsOut
    (server : Server) :
    ServerEvent → Option Nat
  | .exit fd | .endOfFile fd => some (server.main.fdIdList fd).toNat
  | _ => none

/-- The event is a line that pipes to or from the id. -/
def PipesWith
    (server : Server)
    (k : Nat) :
    ServerEvent → Prop
  | .input fd input _ =>
      input.userOutId ≠ 0 ∧
        (input.userOutId = k ∨ (server.main.fdIdList fd).toNat = k)
  | _ => False

/-- The entries from and to an id are empty. -/
def NoPipeWith
    (server : Server)
    (k : Nat) : Prop :=
  ∀ i, server.userPipe k i < 0 ∧ server.userPipe i k < 0

/-- A line `<userInId` of the client on a descriptor finds a pipe. -/
def FindsPipe
    (server : Server)
    (fd : Int)
    (userInId : Nat) : Prop :=
  (server.enter fd).countDown.client.userInReady userInId = true

/--
Entries are only filled between connected clients, and clients have ids in the
range of the loops.
-/
structure PipesBetweenClients (server : Server) : Prop where
  entry :
    ∀ {i j},
      0 ≤ server.userPipe i j →
      server.loggedIn i = true ∧ server.loggedIn j = true
  inRange : ∀ {i}, server.loggedIn i = true → i ∈ clientIds
  minId : server.main.minId ∈ clientIds

variable {server next : Server}

/-! The table after a login and after a logout. -/

theorem userPipe_login
    (server : Server)
    (i j : Nat) :
    server.login.userPipe i j =
      if i = server.main.minId then -1 else server.userPipe i j := by
  change (Function.update server.client.list server.main.minId
    (.loggedIn server.fds.lowestFree) i).userPipe j = _
  split_ifs with new
  · subst new
    rw [Function.update_self]
    rfl
  · rw [Function.update_of_ne new]
    rfl

theorem loggedIn_login
    (server : Server)
    (i : Nat) :
    server.login.loggedIn i =
      if i = server.main.minId then true else server.loggedIn i := by
  change (Function.update server.client.list server.main.minId
    (.loggedIn server.fds.lowestFree) i).state = _
  split_ifs with new
  · subst new
    rw [Function.update_self]
    rfl
  · rw [Function.update_of_ne new]
    rfl

theorem userPipe_logout
    (server : Server)
    (fd : Int)
    (i j : Nat) :
    (server.logout fd).userPipe i j =
      if i = (server.main.fdIdList fd).toNat then
        -1
      else if i ∈ clientIds ∧ j = (server.main.fdIdList fd).toNat ∧
          0 ≤ server.userPipe i j then
        -1
      else
        server.userPipe i j := by
  change ((deleteClientInfor _).list i).userPipe j = _
  unfold deleteClientInfor
  dsimp only
  by_cases leaving : i = (server.main.fdIdList fd).toNat
  · rw [if_pos leaving, if_pos leaving]
    rfl
  · rw [if_neg leaving, if_neg leaving]
    by_cases inRange : i ∈ clientIds
    · rw [if_pos inRange]
      have cleared :
          clearUserPipe (server.client.list i).userPipe
              (server.main.fdIdList fd).toNat j =
            if j = (server.main.fdIdList fd).toNat ∧ 0 ≤ server.userPipe i j then
              -1
            else
              server.userPipe i j := by
        unfold clearUserPipe userPipe
        by_cases column : j = (server.main.fdIdList fd).toNat
        · subst column
          split_ifs with held <;> simp_all
        · have notColumn :
              ¬ (j = (server.main.fdIdList fd).toNat ∧
                0 ≤ (server.client.list i).userPipe j) :=
            fun both => column both.1
          rw [if_neg notColumn]
          split_ifs
          · exact Function.update_of_ne column _ _
          · rfl
      simp only [inRange, true_and]
      exact cleared
    · rw [if_neg inRange, if_neg fun both => inRange both.1]
      rfl

theorem loggedIn_logout
    (server : Server)
    (fd : Int)
    (i : Nat) :
    (server.logout fd).loggedIn i =
      if i = (server.main.fdIdList fd).toNat then
        false
      else
        server.loggedIn i := by
  change ((deleteClientInfor _).list i).state = _
  unfold deleteClientInfor
  dsimp only
  split_ifs <;> rfl

/-! ## The invariant -/

/-- A line keeps the invariant, as its client is connected. -/
theorem PipesBetweenClients.line
    {userOutId : Nat}
    (between : server.PipesBetweenClients)
    (connected : server.loggedIn server.client.id = true)
    (move : TableMove userOutId server next) :
    next.PipesBetweenClients where
  entry := by
    intro i j held
    rw [move.loggedIn, move.loggedIn]
    rcases move.entry i j with same | cleared | ⟨_, rfl, rfl, isReceiver⟩
    · rw [same] at held
      exact between.entry held
    · omega
    · exact ⟨isReceiver, connected⟩
  inRange := by
    intro i isClient
    rw [move.loggedIn] at isClient
    exact between.inRange isClient
  minId := by
    rw [move.minId]
    exact between.minId

theorem PipesBetweenClients.login
    (between : server.PipesBetweenClients) :
    server.login.PipesBetweenClients where
  entry := by
    intro i j held
    rw [userPipe_login] at held
    rw [loggedIn_login, loggedIn_login]
    split_ifs at held with row
    · omega
    · obtain ⟨isReceiver, isSender⟩ := between.entry held
      rw [if_neg row, isSender]
      exact ⟨isReceiver, by simp⟩
  inRange := by
    intro i isClient
    rw [loggedIn_login] at isClient
    split_ifs at isClient with new
    · rw [new]
      exact between.minId
    · exact between.inRange isClient
  minId := by
    change (clientIds.find? _).getD server.main.minId ∈ clientIds
    cases search : clientIds.find? _ with
    | none => exact between.minId
    | some least => exact List.mem_of_find?_eq_some search

theorem PipesBetweenClients.logout
    (between : server.PipesBetweenClients)
    {fd : Int}
    (leaving : server.loggedIn (server.main.fdIdList fd).toNat = true) :
    (server.logout fd).PipesBetweenClients where
  entry := by
    intro i j held
    rw [userPipe_logout] at held
    rw [loggedIn_logout, loggedIn_logout]
    split_ifs at held with row column
    · omega
    · omega
    · obtain ⟨isReceiver, isSender⟩ := between.entry held
      -- a filled entry of the leaving client's column was cleared
      have notColumn : j ≠ (server.main.fdIdList fd).toNat :=
        fun isColumn => column ⟨between.inRange isReceiver, isColumn, held⟩
      rw [if_neg row, if_neg notColumn]
      exact ⟨isReceiver, isSender⟩
  inRange := by
    intro i isClient
    rw [loggedIn_logout] at isClient
    split_ifs at isClient
    exact between.inRange isClient
  minId := by
    change (if _ then (server.main.fdIdList fd).toNat else server.main.minId) ∈
      clientIds
    split_ifs
    · exact between.inRange leaving
    · exact between.minId

theorem pipesBetweenClients_initial : initial.PipesBetweenClients where
  entry := by
    intro i j held
    change (0 : Int) ≤ -1 at held
    omega
  inRange := by
    intro i isClient
    cases isClient
  minId := by decide

/-- The client on a descriptor that the server reads has a slot. -/
theorem loggedIn_of_connected
    {fd : Int}
    (connected : server.connected fd = true) :
    server.loggedIn (server.main.fdIdList fd).toNat = true := by
  simp only [Server.connected, Bool.and_eq_true] at connected
  exact connected.2

theorem tableMove_countDown
    (server : Server) :
    TableMove 0 server server.countDown :=
  tableMove_setInfor server _

/-- Every event keeps the invariant. -/
theorem PipesBetweenClients.step
    {event : ServerEvent}
    (between : server.PipesBetweenClients)
    (stepped : server.Steps event next) :
    next.PipesBetweenClients := by
  have entered (fd : Int) : (server.enter fd).PipesBetweenClients :=
    ⟨between.entry, between.inRange, between.minId⟩
  cases stepped.moves with
  | login => exact between.login
  | @input fd input outside connected =>
      exact (entered fd).line (loggedIn_of_connected connected)
        (tableMove_runShell input outside _)
  | @exit fd connected =>
      have isClient := loggedIn_of_connected connected
      have counted := (entered fd).line isClient (tableMove_countDown _)
      apply counted.logout
      rw [(tableMove_countDown _).loggedIn]
      exact isClient
  | @endOfFile fd connected _ =>
      exact (entered fd).logout (loggedIn_of_connected connected)
  | childExits => exact ⟨between.entry, between.inRange, between.minId⟩

/-! ## Logging out -/

/-- A logout empties the row and the column of its client, and nothing else. -/
structure Departs
    (k : Nat)
    (before after : Server) : Prop where
  others :
    ∀ {i j},
      i ≠ k →
      j ≠ k →
      after.userPipe i j = before.userPipe i j
  noPipe : after.NoPipeWith k

theorem PipesBetweenClients.departs
    (between : server.PipesBetweenClients)
    {fd : Int}
    (k : Nat)
    (isLeaving : (server.main.fdIdList fd).toNat = k) :
    Departs k server (server.logout fd) where
  others := by
    intro i j notRow notColumn
    rw [userPipe_logout, isLeaving, if_neg notRow,
      if_neg fun both => notColumn both.2.1]
  noPipe := by
    intro i
    constructor
    · rw [userPipe_logout, isLeaving, if_pos rfl]
      decide
    · rw [userPipe_logout, isLeaving]
      split_ifs with row column
      · decide
      · decide
      · by_contra held
        rw [Int.not_lt] at held
        have inRange := between.inRange (between.entry held).1
        exact column ⟨inRange, rfl, held⟩

/-- The step that logs a client out. -/
theorem PipesBetweenClients.departs_of_steps
    {event : ServerEvent}
    {k : Nat}
    (between : server.PipesBetweenClients)
    (isLogout : server.logsOut event = some k)
    (stepped : server.Steps event next) :
    Departs k server next := by
  have entered (fd : Int) : (server.enter fd).PipesBetweenClients :=
    ⟨between.entry, between.inRange, between.minId⟩
  cases stepped.moves with
  | @exit fd connected =>
      have move := tableMove_countDown (server.enter fd)
      have counted :=
        (entered fd).line (loggedIn_of_connected connected) move
      have departs := counted.departs k (Option.some.inj isLogout)
      refine ⟨?_, departs.noPipe⟩
      intro i j notRow notColumn
      rw [departs.others notRow notColumn]
      exact congrFun ((server.enter fd).client.setInfor_userPipe _ i) j
  | @endOfFile fd _ _ =>
      have departs := (entered fd).departs k (Option.some.inj isLogout)
      exact ⟨departs.others, departs.noPipe⟩
  | login => cases isLogout
  | input => cases isLogout
  | childExits => cases isLogout

/-- A line that does not pipe to or from an id leaves its entries empty. -/
theorem NoPipeWith.line
    {k userOutId : Nat}
    (noPipe : server.NoPipeWith k)
    (move : TableMove userOutId server next)
    (notPiped :
      userOutId ≠ 0 → userOutId ≠ k ∧ server.client.id ≠ k) :
    next.NoPipeWith k := by
  intro i
  constructor
  · rcases move.entry k i with same | cleared | ⟨given, isReceiver, _⟩
    · rw [same]
      exact (noPipe i).1
    · exact cleared
    · exact absurd isReceiver.symm (notPiped given).1
  · rcases move.entry i k with same | cleared | ⟨given, _, isSender, _⟩
    · rw [same]
      exact (noPipe i).2
    · exact cleared
    · exact absurd isSender.symm (notPiped given).2

theorem NoPipeWith.logout
    {k : Nat}
    (noPipe : server.NoPipeWith k)
    (fd : Int) :
    (server.logout fd).NoPipeWith k := by
  intro i
  rw [userPipe_logout, userPipe_logout]
  constructor
  · split_ifs
    · decide
    · decide
    · exact (noPipe i).1
  · split_ifs
    · decide
    · decide
    · exact (noPipe i).2

/-- Without a line that pipes to or from an id, its entries stay empty. -/
theorem NoPipeWith.step
    {k : Nat}
    {event : ServerEvent}
    (noPipe : server.NoPipeWith k)
    (notPiped : ¬ server.PipesWith k event)
    (stepped : server.Steps event next) :
    next.NoPipeWith k := by
  have entered (fd : Int) : (server.enter fd).NoPipeWith k := noPipe
  cases stepped.moves with
  | login =>
      intro i
      rw [userPipe_login, userPipe_login]
      constructor
      · split_ifs
        · decide
        · exact (noPipe i).1
      · split_ifs
        · decide
        · exact (noPipe i).2
  | @input fd input outside _ =>
      refine (entered fd).line (tableMove_runShell input outside _) ?_
      intro given
      constructor
      · exact fun isReceiver => notPiped ⟨given, Or.inl isReceiver⟩
      · exact fun isSender => notPiped ⟨given, Or.inr isSender⟩
  | @exit fd _ =>
      have counted :=
        (entered fd).line (tableMove_countDown _) (fun given => absurd rfl given)
      exact counted.logout fd
  | @endOfFile fd _ _ => exact (entered fd).logout fd
  | childExits => exact noPipe

/-- Where the entries of an id are empty, neither its `<` nor `<id` finds a pipe. -/
theorem NoPipeWith.ne_of_findsPipe
    {k userInId : Nat}
    {fd : Int}
    (noPipe : server.NoPipeWith k)
    (found : server.FindsPipe fd userInId) :
    (server.main.fdIdList fd).toNat ≠ k ∧ userInId ≠ k := by
  have held : 0 ≤ server.userPipe (server.main.fdIdList fd).toNat userInId := by
    simp only [FindsPipe, ClientStructure.userInReady, Bool.and_eq_true,
      decide_eq_true_eq] at found
    have sameRow := congrFun
      ((server.enter fd).client.setInfor_userPipe
        (server.enter fd).infor.countDownAndCheck
        (server.main.fdIdList fd).toNat) userInId
    exact sameRow.subst (motive := fun fd => 0 ≤ fd) found.2
  constructor
  · rintro rfl
    have := (noPipe userInId).1
    omega
  · rintro rfl
    have := (noPipe (server.main.fdIdList fd).toNat).2
    omega

/--
In every reachable state, entries are only filled between connected clients.  A
logout leaves the entries of the others, and until a line pipes to or from the
id that became free, no `<` of its new owner and no `<` that names it finds a
pipe.
-/
theorem userPipes_followSessions
    {path : List (ServerEvent × Server)}
    (isPath : Path Steps initial path) :
    (∀ {i j},
      0 ≤ (lastState initial path).userPipe i j →
      (lastState initial path).loggedIn i = true ∧
        (lastState initial path).loggedIn j = true) ∧
    ∀ {event k after},
      (lastState initial path).logsOut event = some k →
      (lastState initial path).Steps event after →
      (∀ {i j},
        i ≠ k →
        j ≠ k →
        after.userPipe i j = (lastState initial path).userPipe i j) ∧
      ∀ {later},
        Path Steps after later →
        EveryStep (fun server event => ¬ server.PipesWith k event) after
          later →
        EveryState
          (fun server =>
            ∀ fd userInId,
              server.FindsPipe fd userInId →
              (server.main.fdIdList fd).toNat ≠ k ∧ userInId ≠ k)
          after later := by
  have between : (lastState initial path).PipesBetweenClients :=
    (isPath.everyState (fun between stepped => between.step stepped)
      pipesBetweenClients_initial).last
  refine ⟨between.entry, ?_⟩
  intro event k after isLogout stepped
  have departs := between.departs_of_steps isLogout stepped
  refine ⟨departs.others, ?_⟩
  intro later isLater notPiped
  have empty :
      EveryState (fun server => server.NoPipeWith k) after later := by
    refine Path.everyState_of_everyStep ?_ departs.noPipe isLater notPiped
    intro server event next noPipe notPiped stepped
    exact noPipe.step notPiped stepped
  exact empty.mono fun server noPipe fd userInId found =>
    noPipe.ne_of_findsPipe found

/-- Nothing outside matters to the lines of the witness. -/
def plainOutside : Outside where
  fd := { readFd := -1, writeFd := -1 }
  pos := -1
  exFd0 := -1
  opens := fun _ => true

/-- The command `cat >2`. -/
def pipeToSecond : Command where
  cmd := [["cat"]]
  cmdReserve := "cat >2"
  crossNum := 0
  redir := false
  userInId := 0
  userOutId := 2

/-- Two clients log in, and the first pipes to the second. -/
def pipedEvents : List ServerEvent :=
  [.login, .login, .input 4 (.single pipeToSecond) plainOutside]

/-- The run of these events. -/
def pipedPath : List (ServerEvent × Server) :=
  (trace step initial pipedEvents).getD []

/-- The state after these events. -/
def pipedServer : Server :=
  lastState initial pipedPath

/-- The second client has left. -/
def departedServer : Server :=
  (pipedServer.enter 5).countDown.logout 5

/-- Another client logs in and gets the id of the one that has left. -/
def reusedPath : List (ServerEvent × Server) :=
  [(.login, departedServer.login)]

/-- The pipe to the departed client is not found by the new owner of its id. -/
theorem userPipes_followSessions_reusedId :
    0 ≤ pipedServer.userPipe 2 1 ∧
      (pipedServer.loggedIn 2 = true ∧ pipedServer.loggedIn 1 = true) ∧
      (lastState departedServer reusedPath).loggedIn 2 = true ∧
      EveryState
        (fun server =>
          ∀ fd userInId,
            server.FindsPipe fd userInId →
            (server.main.fdIdList fd).toNat ≠ 2 ∧ userInId ≠ 2)
        departedServer reusedPath := by
  have isPath : Path Steps initial pipedPath := path_trace (by decide +kernel)
  have holds := userPipes_followSessions isPath
  have isFilled : 0 ≤ pipedServer.userPipe 2 1 := by decide +kernel
  have leaves : pipedServer.Steps (.exit 5) departedServer :=
    (Moves.exit (by decide +kernel)).steps
  have isSecond : pipedServer.logsOut (.exit 5) = some 2 := by decide +kernel
  have reuses : Path Steps departedServer reusedPath :=
    ⟨(Moves.login (by decide +kernel)).steps, trivial⟩
  refine ⟨isFilled, holds.1 isFilled, by decide +kernel, ?_⟩
  exact (holds.2 isSecond leaves).2 reuses ⟨id, trivial⟩

end Server

end NpServers.Shell
