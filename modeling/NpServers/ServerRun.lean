import NpServers.PipelineEffect
import NpServers.TransitionPath

namespace NpServers.Shell

open CrossPipe DescriptorTable

/-!
# The numbered-pipe tables over runs of the server

Whatever a line does to descriptors, on the `cross_pipe` tables it is the
countdown followed by the search or insertion of its cross number.  So the
tables stay sound over all logins, lines and logouts.
-/

namespace Server

/--
The servers have the same clients and numbered-pipe tables, and the same
session variables; their `user_pipe` rows and descriptors may differ.
-/
structure SameClients (first second : Server) : Prop where
  fdIdList : first.main.fdIdList = second.main.fdIdList
  clientNum : first.main.clientNum = second.main.clientNum
  minId : first.main.minId = second.main.minId
  id : first.client.id = second.client.id
  state :
    ∀ c, (first.client.list c).state = (second.client.list c).state
  sockfd :
    ∀ c, (first.client.list c).sockfd = (second.client.list c).sockfd
  cpInfor :
    ∀ c, (first.client.list c).cpInfor = (second.client.list c).cpInfor

theorem SameClients.of_main
    {first second : Server}
    (same : first.main = second.main) :
    SameClients first second := by
  have sameClient : first.client = second.client :=
    congrArg MainState.client same
  refine ⟨?_, ?_, ?_, ?_, ?_, ?_, ?_⟩
  · rw [same]
  · rw [same]
  · rw [same]
  · rw [sameClient]
  · rw [sameClient]
    exact fun _ => rfl
  · rw [sameClient]
    exact fun _ => rfl
  · rw [sameClient]
    exact fun _ => rfl

theorem SameClients.trans
    {first second third : Server}
    (same : SameClients first second)
    (sameLater : SameClients second third) :
    SameClients first third where
  fdIdList := same.fdIdList.trans sameLater.fdIdList
  clientNum := same.clientNum.trans sameLater.clientNum
  minId := same.minId.trans sameLater.minId
  id := same.id.trans sameLater.id
  state := fun c => (same.state c).trans (sameLater.state c)
  sockfd := fun c => (same.sockfd c).trans (sameLater.sockfd c)
  cpInfor := fun c => (same.cpInfor c).trans (sameLater.cpInfor c)

theorem SameClients.infor
    {first second : Server}
    (same : SameClients first second) :
    first.infor = second.infor := by
  unfold Server.infor self
  rw [same.id, same.cpInfor]

theorem sameClients_setUserPipe
    (server : Server)
    (receiver sender : Nat)
    (fd : Int) :
    SameClients (server.setUserPipe receiver sender fd) server where
  fdIdList := rfl
  clientNum := rfl
  minId := rfl
  id := rfl
  state := server.client.setUserPipe_state receiver sender fd
  sockfd := server.client.setUserPipe_sockfd receiver sender fd
  cpInfor := server.client.setUserPipe_cpInfor receiver sender fd

theorem sameClients_takeInput
    (line : Command)
    (server : Server) :
    SameClients (server.takeInput line) server := by
  unfold takeInput
  split_ifs
  · exact .of_main rfl
  · exact (sameClients_setUserPipe ..).trans (.of_main rfl)
  · exact .of_main rfl

theorem sameClients_storeUserPipe
    (line : Command)
    (vars : Vars)
    (server : Server) :
    SameClients (server.storeUserPipe line vars) server := by
  unfold storeUserPipe
  split_ifs
  · exact (sameClients_setUserPipe ..).trans (.of_main rfl)
  · exact .of_main rfl

theorem openOutput_main
    (line : Command)
    (vars : Vars)
    (server : Server) :
    (openOutput line vars server).2.main = server.main := by
  unfold openOutput
  dsimp only
  split_ifs <;> rfl

theorem stageOpened_main
    (line : Command)
    (cmdNum : Nat)
    (vars : Vars)
    (i : Nat)
    (server : Server) :
    (stageOpened line cmdNum vars i server).2.main = server.main := by
  unfold stageOpened
  split_ifs
  · rfl
  · exact openOutput_main line vars server

/-! ## The table work of a line -/

/--
On the clients, a line only connects its cross number: the pipe `fd` is
inserted if no waiting block has the same count.
-/
structure Connects
    (line : Command)
    (before after : Server) : Prop where
  fdIdList : after.main.fdIdList = before.main.fdIdList
  clientNum : after.main.clientNum = before.main.clientNum
  minId : after.main.minId = before.main.minId
  id : after.client.id = before.client.id
  state : ∀ c, (after.client.list c).state = (before.client.list c).state
  sockfd : ∀ c, (after.client.list c).sockfd = (before.client.list c).sockfd
  cpInfor :
    ∃ fd,
      ∀ c,
        (after.client.list c).cpInfor =
          if c = before.client.id then
            before.infor.connectCross line.crossNum fd
          else
            (before.client.list c).cpInfor

/-- Operations around the table work do not matter. -/
theorem Connects.around
    {line : Command}
    {before started stored after : Server}
    (connects : Connects line started stored)
    (sameStart : SameClients started before)
    (sameEnd : SameClients after stored) :
    Connects line before after where
  fdIdList :=
    (sameEnd.fdIdList.trans connects.fdIdList).trans sameStart.fdIdList
  clientNum :=
    (sameEnd.clientNum.trans connects.clientNum).trans sameStart.clientNum
  minId := (sameEnd.minId.trans connects.minId).trans sameStart.minId
  id := (sameEnd.id.trans connects.id).trans sameStart.id
  state := fun c =>
    ((sameEnd.state c).trans (connects.state c)).trans (sameStart.state c)
  sockfd := fun c =>
    ((sameEnd.sockfd c).trans (connects.sockfd c)).trans (sameStart.sockfd c)
  cpInfor := by
    obtain ⟨fd, connected⟩ := connects.cpInfor
    refine ⟨fd, fun c => ?_⟩
    rw [sameEnd.cpInfor, connected, sameStart.id, sameStart.infor,
      sameStart.cpInfor]

/-- A line without a cross number leaves the tables. -/
theorem connects_of_sameClients
    {line : Command}
    {before after : Server}
    (same : SameClients after before)
    (keeps : ¬ before.infor.Inserts line.crossNum) :
    Connects line before after where
  fdIdList := same.fdIdList
  clientNum := same.clientNum
  minId := same.minId
  id := same.id
  state := same.state
  sockfd := same.sockfd
  cpInfor := by
    refine ⟨⟨-1, -1⟩, fun c => ?_⟩
    rw [connectCross_of_not_inserts keeps, same.cpInfor]
    split_ifs with own
    · rw [own]
      rfl
    · rfl

/-- The search decides whether the parent inserts the new pipe. -/
theorem connects_storeCross
    {line : Command}
    (cross : line.crossNum ≠ 0)
    (vars : Vars)
    (server : Server)
    (isPos : vars.pos = server.infor.findSameCrossPipe line.crossNum) :
    Connects line server (server.storeCross line vars) := by
  unfold storeCross
  rw [isPos]
  split_ifs with search
  · refine {
      fdIdList := rfl
      clientNum := rfl
      minId := rfl
      id := rfl
      state := server.client.setInfor_state _
      sockfd := server.client.setInfor_sockfd _
      cpInfor := ⟨vars.fd, fun c => ?_⟩ }
    rw [connectCross_of_inserts ⟨cross, search⟩]
    exact server.client.setInfor_cpInfor _ c
  · exact connects_of_sameClients (.of_main rfl) fun inserts =>
      search inserts.2

theorem openOutput_pos
    {line : Command}
    (cross : line.crossNum ≠ 0)
    (vars : Vars)
    (server : Server) :
    (openOutput line vars server).1.pos =
      server.infor.findSameCrossPipe line.crossNum := by
  unfold openOutput
  rw [if_pos cross]
  dsimp only
  split_ifs <;> rfl

/-- The parent's part for the output does the table work of `single_cmd`. -/
theorem connects_singleStore
    {line : Command}
    {vars : Vars}
    {server : Server}
    (isPos :
      line.crossNum ≠ 0 →
      vars.pos = server.infor.findSameCrossPipe line.crossNum) :
    Connects line server (server.singleStore line vars) := by
  unfold singleStore
  split_ifs with cross given
  · exact connects_storeCross cross vars server (isPos cross)
  · exact connects_of_sameClients (sameClients_storeUserPipe ..)
      fun inserts => cross inserts.1
  · exact connects_of_sameClients (.of_main rfl) fun inserts =>
      cross inserts.1

/-- The parent's part for the output does the table work of `ordinary_pipe`. -/
theorem connects_lastStore
    {line : Command}
    (fdRedir : Int)
    {vars : Vars}
    {server : Server}
    (isPos :
      line.crossNum ≠ 0 →
      vars.pos = server.infor.findSameCrossPipe line.crossNum) :
    Connects line server (server.lastStore line fdRedir vars) := by
  unfold lastStore
  split_ifs with cross file given
  · exact connects_storeCross cross vars server (isPos cross)
  · exact connects_of_sameClients (.of_main rfl) fun inserts =>
      cross inserts.1
  · exact connects_of_sameClients (sameClients_storeUserPipe ..)
      fun inserts => cross inserts.1
  · exact connects_of_sameClients (.of_main rfl) fun inserts =>
      cross inserts.1

/-- The table work of `single_cmd`. -/
theorem connects_singleCmd
    (line : Command)
    (outside : Outside)
    (server : Server) :
    Connects line server (server.singleCmd line outside) := by
  have sameStart :
      SameClients (singleConnected line outside server).2 server := by
    refine (sameClients_takeInput line _).trans (.of_main ?_)
    refine (sameTables_fork ..).main.trans ?_
    exact (openOutput_main ..).trans (sameTables_announce server line).main
  have isPos :
      line.crossNum ≠ 0 →
      (singleConnected line outside server).1.pos =
        (singleConnected line outside server).2.infor.findSameCrossPipe
          line.crossNum := by
    intro cross
    rw [sameStart.infor, ← (sameTables_announce server line).infor]
    exact openOutput_pos cross (singleVars outside) (server.announce line)
  exact (connects_singleStore isPos).around sameStart
    (.of_main (sameTables_waitSince ..).main)

theorem stageForked_main
    (line : Command)
    (outside : Outside)
    (cmdNum : Nat)
    (fdRedir : Int)
    (vars : Vars)
    (i : Nat)
    (server : Server) :
    (stageForked line outside cmdNum fdRedir vars i server).2.main =
      server.main :=
  (sameTables_stageForked ..).main.trans (stageOpened_main ..)

/-- A round before the last one leaves the tables. -/
theorem sameClients_runStage
    (line : Command)
    (outside : Outside)
    {cmdNum : Nat}
    (fdRedir : Int)
    (state : Vars × Server)
    {i : Nat}
    (notLast : i ≠ cmdNum - 1) :
    SameClients (runStage line outside cmdNum fdRedir state i).2 state.2 := by
  have forked :=
    stageForked_main line outside cmdNum fdRedir state.1 i state.2
  have connected :
      SameClients
        (stageConnected line outside cmdNum fdRedir state.1 i state.2).2
        state.2 := by
    unfold stageConnected
    dsimp only
    rw [if_neg notLast]
    split_ifs
    · exact (sameClients_takeInput line _).trans (.of_main forked)
    · exact .of_main forked
  have sameMain :
      (runStage line outside cmdNum fdRedir state i).2.main =
        (stageConnected line outside cmdNum fdRedir state.1 i state.2).2.main :=
    rfl
  exact (SameClients.of_main sameMain).trans connected

/-- The rounds before the last one leave the tables. -/
theorem sameClients_runStages
    (line : Command)
    (outside : Outside)
    {cmdNum : Nat}
    (fdRedir : Int)
    (server : Server)
    {count : Nat}
    (notLast : count < cmdNum) :
    SameClients (runStages line outside cmdNum fdRedir server count).2
      server := by
  induction count with
  | zero =>
      exact .of_main rfl
  | succ count inductionHypothesis =>
      rw [runStages_succ]
      exact (sameClients_runStage line outside fdRedir _ (by omega)).trans
        (inductionHypothesis (by omega))

/-- The table work of `ordinary_pipe`, when its file can be opened. -/
theorem connects_runPipeline
    (line : Command)
    (outside : Outside)
    {cmdNum : Nat}
    (stages : 2 ≤ cmdNum)
    (server : Server) :
    Connects line server (server.runPipeline line outside cmdNum) := by
  obtain ⟨i, rfl⟩ : ∃ i, cmdNum = i + 2 := ⟨cmdNum - 2, by omega⟩
  have sameStart :
      SameClients (server.loopStart line (i + 2)) server :=
    .of_main (loopStart_frame line (i + 2) server).main
  have sameBefore :=
    (sameClients_runStages line outside server.fds.lowestFree
      (server.loopStart line (i + 2)) (Nat.lt_succ_self (i + 1))).trans
        sameStart
  generalize lastState :
    runStages line outside (i + 2) server.fds.lowestFree
      (server.loopStart line (i + 2)) (i + 1) = state at sameBefore
  have isRound :
      server.runPipeline line outside (i + 2) =
        ((runStage line outside (i + 2) server.fds.lowestFree state
          (i + 1)).2).waitSince line server.children.length := by
    unfold runPipeline
    change ((runStages line outside (i + 2) server.fds.lowestFree
      (server.loopStart line (i + 2)) (i + 1 + 1)).2).waitSince line _ = _
    rw [runStages_succ, lastState]
  rw [isRound]
  have opened :=
    stageForked_main line outside (i + 2) server.fds.lowestFree state.1 (i + 1)
      state.2
  have isPos (cross : line.crossNum ≠ 0) :
      (stageForked line outside (i + 2) server.fds.lowestFree state.1 (i + 1)
          state.2).1.pos =
        (stageForked line outside (i + 2) server.fds.lowestFree state.1 (i + 1)
          state.2).2.infor.findSameCrossPipe line.crossNum := by
    rw [(SameClients.of_main opened).infor, stageForked_fst,
      stageOpened_of_last (by omega)]
    exact openOutput_pos cross state.1 state.2
  have stored := connects_lastStore server.fds.lowestFree isPos
  have isLast : i + 1 = i + 2 - 1 := by omega
  rw [← stageConnected_of_last outside _ _ isLast] at stored
  exact stored.around ((SameClients.of_main opened).trans sameBefore)
    (.of_main (sameTables_waitSince ..).main)

/-! ## The events of a run -/

/-- The state after an event, with what the server has tested before. -/
inductive Moves
    (server : Server) :
    ServerEvent → Server → Prop where
  | login
      (room : server.main.clientNum < maxClientNum) :
      Moves server .login server.login
  | input
      {fd : Int}
      {input : Input}
      {outside : Outside}
      (connected : server.connected fd = true) :
      Moves server (.input fd input outside)
        ((server.enter fd).runShell input outside)
  | exit
      {fd : Int}
      (connected : server.connected fd = true) :
      Moves server (.exit fd) ((server.enter fd).countDown.logout fd)
  | endOfFile
      {fd : Int}
      (connected : server.connected fd = true)
      (intact : (server.enter fd).dangling = false) :
      Moves server (.endOfFile fd) ((server.enter fd).logout fd)
  | childExits
      (index : Nat) :
      Moves server (.childExits index) (server.exitChild index)

theorem Steps.moves
    {server next : Server}
    {event : ServerEvent}
    (stepped : server.Steps event next) :
    server.Moves event next := by
  unfold Steps step at stepped
  cases event with
  | login =>
      rw [Option.ite_none_right_eq_some] at stepped
      obtain ⟨room, isNext⟩ := stepped
      cases isNext
      exact .login room
  | input fd input outside =>
      rw [Option.ite_none_right_eq_some] at stepped
      obtain ⟨connected, isNext⟩ := stepped
      cases isNext
      exact .input connected
  | exit fd =>
      rw [Option.ite_none_right_eq_some] at stepped
      obtain ⟨connected, isNext⟩ := stepped
      cases isNext
      exact .exit connected
  | endOfFile fd =>
      rw [Option.ite_none_right_eq_some] at stepped
      obtain ⟨allowed, isNext⟩ := stepped
      cases isNext
      rw [Bool.and_eq_true, Bool.not_eq_true'] at allowed
      exact .endOfFile allowed.1 allowed.2
  | childExits index =>
      cases stepped
      exact .childExits index

/-- What the server has tested is enough for the event. -/
theorem Moves.steps
    {server next : Server}
    {event : ServerEvent}
    (moves : server.Moves event next) :
    server.Steps event next := by
  cases moves with
  | login room => exact if_pos room
  | input connected => exact if_pos connected
  | exit connected => exact if_pos connected
  | endOfFile connected intact =>
      refine if_pos ?_
      rw [connected, intact]
      rfl
  | childExits index => rfl

/-! ## Soundness over runs -/

/-- The numbered-pipe table of every slot is sound. -/
def SoundTables (server : Server) : Prop :=
  ∀ c, (server.client.list c).cpInfor.Sound

/-- The flag for the freed record does not matter to soundness. -/
theorem sound_recordFreed
    {infor : CrossPipe}
    (sound : infor.Sound) :
    ({ infor with recordFreed := true } : CrossPipe).Sound :=
  ⟨sound.nonzero, sound.distinct, sound.tight⟩

theorem SoundTables.setInfor
    {server : Server}
    (sound : server.SoundTables)
    {infor : CrossPipe}
    (soundInfor : infor.Sound) :
    (server.setInfor infor).SoundTables := by
  intro c
  change ((server.client.setInfor infor).list c).cpInfor.Sound
  rw [ClientStructure.setInfor_cpInfor]
  split_ifs
  · exact soundInfor
  · exact sound c

theorem SoundTables.countDown
    {server : Server}
    (sound : server.SoundTables) :
    server.countDown.SoundTables :=
  sound.setInfor (sound server.client.id).countDownAndCheck

theorem SoundTables.freeRecord
    {server : Server}
    (sound : server.SoundTables) :
    server.freeRecord.SoundTables := by
  unfold Server.freeRecord
  split_ifs
  · exact sound.setInfor (sound_recordFreed (sound server.client.id))
  · exact sound

/-- The table work of a line keeps the tables sound. -/
theorem SoundTables.connects
    {line : Command}
    {before after : Server}
    (sound : before.SoundTables)
    (record : before.infor.closeFdRecord = before.infor.pendingSlots)
    (connects : Connects line before after) :
    after.SoundTables := by
  obtain ⟨fd, cpInfor⟩ := connects.cpInfor
  intro c
  rw [cpInfor]
  split_ifs
  · exact (sound before.client.id).connectCross record line.crossNum fd
  · exact sound c

theorem countDown_record
    (server : Server) :
    server.countDown.infor.closeFdRecord =
      server.countDown.infor.pendingSlots := by
  have counted :
      server.countDown.infor = server.infor.countDownAndCheck := by
    change ((server.client.setInfor _).list _).cpInfor = _
    rw [ClientStructure.setInfor_cpInfor]
    exact if_pos rfl
  rw [counted]
  exact countDownAndCheck_closeFdRecord _

theorem SoundTables.cmdName
    {server : Server}
    (sound : server.SoundTables)
    (name : String) :
    (server.cmdName name).SoundTables := by
  unfold Server.cmdName
  split_ifs
  · exact sound
  · intro c
    change ((Function.update server.client.list server.client.id _) c).cpInfor.Sound
    by_cases own : c = server.client.id
    · subst own
      rw [Function.update_self]
      exact sound server.client.id
    · rw [Function.update_of_ne own]
      exact sound c

theorem SoundTables.dispatch
    {server : Server}
    (sound : server.SoundTables)
    (record : server.infor.closeFdRecord = server.infor.pendingSlots)
    (input : Input)
    (outside : Outside) :
    (server.dispatch input outside).SoundTables := by
  cases input with
  | blank => exact sound
  | talk => exact sound
  | builtin => exact sound
  | name name => exact sound.cmdName name
  | single line =>
      exact sound.connects record (connects_singleCmd line outside server)
  | pipeline line stages =>
      change (server.ordinaryPipe line outside line.cmdNum).SoundTables
      unfold ordinaryPipe
      split_ifs
      · exact sound
      · exact sound.connects record
          (connects_runPipeline line outside stages server)

theorem SoundTables.runShell
    {server : Server}
    (sound : server.SoundTables)
    (input : Input)
    (outside : Outside) :
    (server.runShell input outside).SoundTables := by
  have counted := sound.countDown
  have finished (input : Input) :
      (server.countDown.dispatch input outside).freeRecord.SoundTables :=
    (counted.dispatch server.countDown_record input outside).freeRecord
  cases input with
  | blank => exact sound
  | talk => exact counted
  | builtin => exact finished .builtin
  | name name => exact finished (.name name)
  | single line => exact finished (.single line)
  | pipeline line stages => exact finished (.pipeline line stages)

theorem SoundTables.logout
    {server : Server}
    (sound : server.SoundTables)
    (fd : Int) :
    (server.logout fd).SoundTables := by
  intro c
  change ((deleteClientInfor _).list c).cpInfor.Sound
  unfold deleteClientInfor
  dsimp only
  split_ifs
  · exact sound_initialCrossPipeInfor
  · exact sound c
  · exact sound c

theorem SoundTables.login
    {server : Server}
    (sound : server.SoundTables) :
    server.login.SoundTables := by
  intro c
  change ((Function.update server.client.list server.main.minId
    (.loggedIn server.fds.lowestFree)) c).cpInfor.Sound
  by_cases new : c = server.main.minId
  · subst new
    rw [Function.update_self]
    exact sound_initialCrossPipeInfor
  · rw [Function.update_of_ne new]
    exact sound c

/-- Every event keeps the tables sound. -/
theorem SoundTables.step
    {server next : Server}
    {event : ServerEvent}
    (sound : server.SoundTables)
    (stepped : server.Steps event next) :
    next.SoundTables := by
  have entered (fd : Int) : (server.enter fd).SoundTables := sound
  cases stepped.moves with
  | login => exact sound.login
  | @input fd input outside _ => exact (entered fd).runShell input outside
  | @exit fd _ => exact (entered fd).countDown.logout fd
  | @endOfFile fd _ _ => exact (entered fd).logout fd
  | childExits => exact sound

theorem soundTables_initial : initial.SoundTables :=
  fun _ => sound_initialCrossPipeInfor

/-- The tables are sound at every state of every run. -/
theorem soundTables_run
    {path : List (ServerEvent × Server)}
    (isPath : TransitionPath.Path Steps initial path) :
    (TransitionPath.lastState initial path).SoundTables :=
  (isPath.everyState (fun sound stepped => sound.step stepped)
    soundTables_initial).last

end Server

end NpServers.Shell
