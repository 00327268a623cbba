import NpServers.UserPipeDecisions

namespace NpServers.Shell

open CrossPipe DescriptorTable TransitionPath

/-!
# What becomes of an expired pipe

The countdown of a line frees the slot of a numbered pipe before it is known
what kind of line follows.  The descriptors of the pipe are closed by the parent
that connects them to the first command.  A line without a command does not get
there, and neither does a pipeline whose file cannot be opened.
-/

namespace ServerEvent

/-- The descriptor that a line with a countdown comes from. -/
def line? : ServerEvent → Option Int
  | .input _ .blank _ => none
  | .input fd _ _ => some fd
  | .exit fd => some fd
  | .login | .endOfFile _ | .childExits _ => none

/-- The line gets to the parent's branch for the input. -/
def TakesInput : ServerEvent → Prop
  | .input _ (.single _) _ => True
  | .input _ (.pipeline line _) outside =>
      line.redir = true → outside.opens (line.word line.cmdNum) = true
  | _ => False

theorem line?_input
    {input : Input}
    (notBlank : input ≠ .blank)
    (fd : Int)
    (outside : Outside) :
    (ServerEvent.input fd input outside).line? = some fd := by
  cases input with
  | blank => exact absurd rfl notBlank
  | talk | builtin | name | single | pipeline => rfl

end ServerEvent

namespace Server

/--
The two ends of a pipe that were open in `before` are closed in `after`.  No
other descriptor was closed, and none that was not open.
-/
structure ClosedOnce
    (fd : PipeFds)
    (before after : DescriptorTable File) : Prop where
  closed :
    ∃ pipe,
      before.file fd.readFd = some (.readEnd pipe) ∧
        before.file fd.writeFd = some (.writeEnd pipe) ∧
        ∀ other,
          after.file other ≠ some (.readEnd pipe) ∧
            after.file other ≠ some (.writeEnd pipe)
  others :
    ∀ {other file},
      before.file other = some file →
      other ≠ fd.readFd →
      other ≠ fd.writeFd →
        after.file other = some file
  noBadClose : after.badCloses = before.badCloses

/-- An end that is still open was not closed. -/
theorem not_closedOnce
    {fd : PipeFds}
    {before after : DescriptorTable File}
    (kept : after.file fd.readFd = before.file fd.readFd) :
    ¬ ClosedOnce fd before after := by
  intro closedOnce
  obtain ⟨number, isRead, -, gone⟩ := closedOnce.closed
  exact (gone _).1 (kept.trans isRead)

variable {server after : Server}

/-- The block of the expired pipe has its two ends. -/
theorem LineReady.expired_open
    (lineReady : server.LineReady)
    {slot : Nat}
    (expired : server.infor.outputPoint = slot) :
    ∃ pipe,
      server.fds.file (server.infor.list slot).readFd = some (.readEnd pipe) ∧
        server.fds.file (server.infor.list slot).writeFd =
          some (.writeEnd pipe) := by
  have isHeld :
      server.client.RecordedOrExpired (.readFd server.client.id slot) :=
    Or.inr ⟨rfl, expired⟩
  exact lineReady.wired.block isHeld

/-- A line that takes its input closes the expired pipe. -/
theorem LineReady.closedOnce
    (lineReady : server.LineReady)
    {slot : Nat}
    (expired : server.infor.outputPoint = slot)
    {line : Command}
    {pipe : Nat}
    (effect : Effect line pipe server after) :
    ClosedOnce (server.infor.list slot).fds server.fds after.fds := by
  obtain ⟨extra, client, frame⟩ := effect.takes
  obtain ⟨number, isRead, isWrite⟩ := lineReady.expired_open expired
  have readInput :=
    expired_mem_inputFds expired line (Or.inl rfl)
  have writeInput :=
    expired_mem_inputFds expired line (Or.inr rfl)
  constructor
  case closed =>
    refine ⟨number, isRead, isWrite, fun other => ⟨?_, ?_⟩⟩
    · exact lineReady.input_gone frame readInput isRead other
    · exact lineReady.input_gone frame writeInput isWrite other
  case others =>
    intro other file isOpen notRead notWrite
    apply frame.fds.file_base
    rw [takenFds, closeAll_file, if_neg ?_]
    · exact isOpen
    · have isExpired : 0 ≤ server.infor.outputPoint := by omega
      have isSlot : server.infor.outputPoint.toNat = slot := by omega
      unfold inputFds
      rw [ClientStructure.inputPorts_of_expired line isExpired]
      change other ∉
        [(server.infor.list server.infor.outputPoint.toNat).writeFd,
          (server.infor.list server.infor.outputPoint.toNat).readFd]
      rw [isSlot]
      simpa using ⟨notWrite, notRead⟩
  case noBadClose =>
    exact effect.badCloses (lineReady.inputPipes line).inputOpen

/-- No expired pipe can be the input of a self-piped command. -/
theorem not_selfPiped_of_expired
    {slot : Nat}
    (expired : server.infor.outputPoint = slot)
    (line : Command) :
    ¬ server.client.SelfPiped line := by
  rintro ⟨-, notExpired, -⟩
  change server.infor.outputPoint < 0 at notExpired
  omega

/-- After the countdown, a line closes the expired pipe if it takes its input. -/
theorem LineReady.dispatch_closedOnce_iff
    (lineReady : server.LineReady)
    {slot : Nat}
    (expired : server.infor.outputPoint = slot)
    (fd : Int)
    (input : Input)
    (outside : Outside) :
    ClosedOnce (server.infor.list slot).fds server.fds
        (server.dispatch input outside).fds ↔
      (ServerEvent.input fd input outside).TakesInput := by
  have untouched (same : (server.dispatch input outside).fds = server.fds) :
      ¬ ClosedOnce (server.infor.list slot).fds server.fds
        (server.dispatch input outside).fds :=
    not_closedOnce (by rw [same])
  cases input with
  | blank => exact iff_of_false (untouched rfl) id
  | talk => exact iff_of_false (untouched rfl) id
  | builtin => exact iff_of_false (untouched rfl) id
  | name name =>
      refine iff_of_false (untouched ?_) id
      exact (sameRecords_cmdName server name).fds
  | single line =>
      have effect :=
        singleCmd_effect outside (lineReady.inputPipes line).inputOpen
          (not_selfPiped_of_expired expired line)
      exact iff_of_true (lineReady.closedOnce expired effect) trivial
  | pipeline line stages =>
      by_cases opens :
          line.redir = true → outside.opens (line.word line.cmdNum) = true
      · have isCommand :
            (Input.pipeline line stages).command? = some line :=
          rfl
        have effect :=
          dispatch_effect isCommand opens
            (lineReady.inputPipes line).inputOpen
            (not_selfPiped_of_expired expired line)
        exact iff_of_true (lineReady.closedOnce expired effect) opens
      · refine iff_of_false (untouched ?_) opens
        push Not at opens
        change (server.ordinaryPipe line outside line.cmdNum).fds = _
        rw [ordinaryPipe, if_pos ⟨opens.1, by simpa using opens.2⟩]
        rfl

/-- A logout closes what is recorded, and the expired pipe is not. -/
theorem Settled.logout_not_closedOnce
    (settled : server.Settled)
    (lineReady : server.LineReady)
    {slot : Nat}
    (expired : server.infor.outputPoint = slot)
    {fd : Int}
    (isId : server.main.fdIdList fd = server.client.id) :
    ¬ ClosedOnce (server.infor.list slot).fds server.fds
      (server.logout fd).fds := by
  obtain ⟨number, isRead, -⟩ := lineReady.expired_open expired
  have inUse : 0 ≤ server.main.fdIdList fd := by
    rw [isId]
    exact Int.natCast_nonneg _
  obtain ⟨socket, isSocket⟩ := settled.sockets.isOpen inUse
  refine not_closedOnce (logout_file_of_kept ?_ ?_)
  · intro leaving
    obtain ⟨port, isLeaving, sameFd⟩ := List.mem_map.mp leaving
    have recorded :=
      settled.recorded_of_leaving lineReady.inLine.state isLeaving
    have isHeld : server.client.RecordedOrExpired port := by
      cases port with
      | readFd c other => exact Or.inl recorded
      | writeFd c other => exact Or.inl recorded
      | userPipe receiver sender => exact recorded
    have isExpired : server.client.Expired server.client.id slot :=
      ⟨rfl, expired⟩
    have expiredHeld :
        server.client.RecordedOrExpired (.readFd server.client.id slot) :=
      Or.inr isExpired
    have same : port = .readFd server.client.id slot :=
      lineReady.wired.distinct isHeld expiredHeld sameFd
    rw [same] at recorded
    exact lineReady.inLine.not_waiting_of_expired isExpired recorded
  · rintro rfl
    cases isSocket.symm.trans isRead

/-! ## Lines of a run -/

/-- What is freed at the end of a line is not a descriptor. -/
theorem runShell_fds
    {input : Input}
    (notBlank : input ≠ .blank)
    (outside : Outside)
    (server : Server) :
    (server.runShell input outside).fds =
      (server.countDown.dispatch input outside).fds := by
  cases input with
  | blank => exact absurd rfl notBlank
  | talk => rfl
  | builtin => exact freeRecord_fds _
  | name name => exact freeRecord_fds _
  | single line => exact freeRecord_fds _
  | pipeline line stages => exact freeRecord_fds _

/-- A line of a settled server closes the pipe that expires on it exactly once,
if and only if it takes its input. -/
theorem Settled.closedOnce_iff
    (settled : server.Settled)
    {event : ServerEvent}
    {next : Server}
    (stepped : server.Steps event next)
    {fd : Int}
    (isLine : event.line? = some fd)
    {slot : Nat}
    (expired : ((server.enter fd).countDown).infor.outputPoint = slot) :
    ClosedOnce (((server.enter fd).countDown).infor.list slot).fds server.fds
        next.fds ↔
      event.TakesInput := by
  cases stepped.moves with
  | login => cases isLine
  | endOfFile => cases isLine
  | childExits => cases isLine
  | @exit own connected =>
      cases isLine
      obtain ⟨state, isId⟩ := enter_of_connected connected
      have counted := (settled.enter fd).countDown state
      have lineReady := (settled.enter fd).lineReady state
      exact
        iff_of_false
          (counted.logout_not_closedOnce lineReady expired isId) id
  | @input own input outside connected =>
      obtain ⟨state, -⟩ := enter_of_connected connected
      have lineReady := (settled.enter own).lineReady state
      have notBlank : input ≠ .blank := by
        rintro rfl
        cases isLine
      rw [ServerEvent.line?_input notBlank, Option.some.injEq] at isLine
      subst isLine
      rw [runShell_fds notBlank]
      exact lineReady.dispatch_closedOnce_iff expired own input outside

/-- The line runs a command, after which the input is closed. -/
theorem expired_closedOnce_iff
    {path : List (ServerEvent × Server)}
    (isPath : Path Steps initial path)
    (notSelf :
      EveryStep (fun server event => ¬ server.SelfPipesAt event) initial path)
    {event : ServerEvent}
    {next : Server}
    (stepped : (lastState initial path).Steps event next)
    {fd : Int}
    (isLine : event.line? = some fd)
    {slot : Nat}
    (expired :
      (((lastState initial path).enter fd).countDown).infor.outputPoint =
        slot) :
    ClosedOnce
        ((((lastState initial path).enter fd).countDown).infor.list slot).fds
        (lastState initial path).fds next.fds ↔
      event.TakesInput :=
  (settled_run isPath notSelf).closedOnce_iff stepped isLine expired

/-- The line `ls |1`. -/
def pipingCommand : Command where
  cmd := [["ls"]]
  cmdReserve := "ls |1"
  crossNum := 1
  redir := false
  userInId := 0
  userOutId := 0

/-- The line `cat`. -/
def readingCommand : Command where
  cmd := [["cat"]]
  cmdReserve := "cat"
  crossNum := 0
  redir := false
  userInId := 0
  userOutId := 0

/-- The run in which the first client has sent `ls |1`. -/
def pipingPath : List (ServerEvent × Server) :=
  [(.login, initial.login),
    (.input 4 (.single pipingCommand) fillingOutside,
      (initial.login.enter 4).runShell (.single pipingCommand) fillingOutside)]

theorem path_pipingPath : Path Steps initial pipingPath :=
  ⟨Moves.steps (.login (by decide)), Moves.steps (.input rfl), trivial⟩

theorem pipingPath_notSelf :
    EveryStep (fun server event => ¬ server.SelfPipesAt event) initial
      pipingPath :=
  ⟨id, fun selfPiped => absurd selfPiped.1 (by decide), trivial⟩

theorem pipingPath_expired :
    (((lastState initial pipingPath).enter 4).countDown).infor.outputPoint =
      (0 : Nat) := by
  decide +kernel

theorem pipingPath_steps (input : Input) :
    (lastState initial pipingPath).Steps (.input 4 input fillingOutside)
      (((lastState initial pipingPath).enter 4).runShell input
        fillingOutside) :=
  Moves.steps (.input (by decide +kernel))

/-- The command `cat` reads what `ls |1` has written. -/
theorem expired_closedOnce_cat :
    ∃ next,
      (lastState initial pipingPath).Steps
          (.input 4 (.single readingCommand) fillingOutside) next ∧
        ClosedOnce
          ((((lastState initial pipingPath).enter 4).countDown).infor.list
            0).fds
          (lastState initial pipingPath).fds next.fds :=
  ⟨_, pipingPath_steps (.single readingCommand),
    (expired_closedOnce_iff path_pipingPath pipingPath_notSelf
      (pipingPath_steps (.single readingCommand)) rfl
      pipingPath_expired).mpr trivial⟩

/-- The line `who` leaves the pipe of `ls |1` open. -/
theorem who_keeps_expired :
    ∃ next,
      Path Steps initial pipingPath ∧
        EveryStep (fun server event => ¬ server.SelfPipesAt event) initial
          pipingPath ∧
        (lastState initial pipingPath).Steps
          (.input 4 .builtin fillingOutside) next ∧
        (((lastState initial pipingPath).enter 4).countDown).infor.outputPoint =
          (0 : Nat) ∧
        ¬ ClosedOnce
          ((((lastState initial pipingPath).enter 4).countDown).infor.list
            0).fds
          (lastState initial pipingPath).fds next.fds := by
  refine
    ⟨_, path_pipingPath, pipingPath_notSelf, pipingPath_steps .builtin,
      pipingPath_expired, ?_⟩
  intro closedOnce
  exact
    ((settled_run path_pipingPath pipingPath_notSelf).closedOnce_iff
      (pipingPath_steps .builtin) rfl pipingPath_expired).mp closedOnce

end Server

end NpServers.Shell
