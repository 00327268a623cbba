import NpServers.SessionWiring

namespace NpServers.MultiProc

open Shell TransitionPath

/-!
# Two clients that pipe to each other

Two clients call `create_user_pipe` towards each other.  Each takes the lock of
the other's mailbox, leaves the path of a fifo there, sends `SIGUSR2` and opens
the fifo for writing; the handler of the other opens it for reading.  Either
`open` waits for the other one.

A handler runs on top of the interrupted call.  When both clients are
interrupted between their `kill` and the end of their `open`, both handlers wait
for an `open` that lies below the handler of the other.  This module shows that
there is no other way to get stuck.
-/

/-! ## The statements of the two clients -/

/-- The statements of `create_user_pipe`. -/
def Code.createsUserPipe :
    Code → Bool
  | .lockFifo _ | .countFifo _ | .unlockFifo _ _ | .openFifo _ _ => true
  | .send _ .usr2 _ _ _ => true
  | _ => false

/-- The statements under the lock of the fifo counter. -/
def Code.inFifoLock :
    Code → Bool
  | .countFifo _ | .unlockFifo _ _ => true
  | _ => false

/-- The `open` of `create_user_pipe`. -/
def Code.opensFifo :
    Code → Bool
  | .openFifo _ _ => true
  | _ => false

/-- A statement of `user_pipe_handler` up to its `open`. -/
def Frame.beforeOpen :
    Frame → Bool
  | .userPipeHandler | .openMailbox _ => true
  | _ => false

/-- A statement of `user_pipe_handler` behind its `open`. -/
def Frame.behindOpen :
    Frame → Bool
  | .storePipe _ _ _ | .post => true
  | _ => false

namespace Machine

/-- The steps of `create_user_pipe` and `user_pipe_handler` in two processes. -/
def PairActs
    (first second : Nat)
    (machine : Machine) :
    Action → Prop
  | .main pid | .kill pid =>
      (pid = first ∨ pid = second) ∧
        (machine.procs pid).code.createsUserPipe = true
  | .deliver pid signal => (pid = first ∨ pid = second) ∧ signal = .usr2
  | .handle pid _ => pid = first ∨ pid = second
  | _ => False

instance
    (first second : Nat)
    (machine : Machine) :
    DecidablePred (machine.PairActs first second)
  | .main _ | .kill _ | .deliver _ _ => inferInstanceAs (Decidable (_ ∧ _))
  | .handle _ _ => inferInstanceAs (Decidable (_ ∨ _))
  | .fork _ _ | .waitLock | .waitRoom | .line _ _ | .exit _ => .isFalse id

/-- A step of one of the two. -/
def PairSteps
    (first second : Nat)
    (machine : Machine)
    (action : Action)
    (next : Machine) : Prop :=
  machine.PairActs first second action ∧ machine.Steps action next

/-- The call has returned, and no handler is pending or running. -/
def Finished
    (machine : Machine)
    (pid : Nat) : Prop :=
  (machine.procs pid).code.createsUserPipe = false ∧
    (machine.procs pid).pending .usr2 = false ∧
    (machine.procs pid).frames = []

/-- As long as one of the two has not finished, one of them can go on. -/
def GoesOn
    (first second : Nat)
    (machine : Machine) : Prop :=
  ¬ (machine.Finished first ∧ machine.Finished second) →
    ∃ action next, machine.PairSteps first second action next

/-- The handler has interrupted the call at its `open` and not opened its own end. -/
def engaged
    (machine : Machine)
    (pid : Nat) : Bool :=
  match (machine.procs pid).code, (machine.procs pid).frames with
  | .openFifo _ _, [frame] => frame.beforeOpen
  | _, _ => false

/--
The condition on a step: the signal is not taken at the `open` of the call while
the other client is engaged.
-/
def deliversApart
    (first second : Nat)
    (machine : Machine) :
    Action → Bool
  | .deliver pid _ =>
      !(machine.procs pid).code.opensFifo ||
        !machine.engaged (if pid = first then second else first)
  | _ => true

end Machine

/-! ## One call and the handler that answers it -/

/-- The parts of being engaged. -/
def Machine.Engaged
    (machine : Machine)
    (pid : Nat) : Prop :=
  (∃ path vars, (machine.procs pid).code = .openFifo path vars) ∧
    ∃ frame,
      (machine.procs pid).frames = [frame] ∧ frame.beforeOpen = true

theorem Machine.Engaged.engaged
    {machine : Machine}
    {pid : Nat}
    (isEngaged : machine.Engaged pid) :
    machine.engaged pid = true := by
  obtain ⟨⟨path, vars, code⟩, frame, frames, isBefore⟩ := isEngaged
  simp [Machine.engaged, code, frames, isBefore]

/-- How far a process has answered the signal for a fifo. -/
inductive Answer
    (machine : Machine)
    (pid : Nat)
    (path : String) : Prop where
  | pending
      (isPending : (machine.procs pid).pending .usr2 = true)
      (frames : (machine.procs pid).frames = [])
      (mailbox :
        (machine.common.client (machine.procs pid).id).mailbox = path)
  | running
      {frame : Frame}
      (notPending : (machine.procs pid).pending .usr2 = false)
      (frames : (machine.procs pid).frames = [frame])
      (isBefore : frame.beforeOpen = true)
      (mailbox :
        (machine.common.client (machine.procs pid).id).mailbox = path)
  | opened
      (notPending : (machine.procs pid).pending .usr2 = false)
      (frames :
        (machine.procs pid).frames = [] ∨
          ∃ frame,
            (machine.procs pid).frames = [frame] ∧ frame.behindOpen = true)
      (reader : (machine.common.fifos path).reader = true)

/-- No signal for a fifo has been sent to the process. -/
def Quiescent
    (machine : Machine)
    (pid : Nat) : Prop :=
  (machine.procs pid).pending .usr2 = false ∧ (machine.procs pid).frames = []

/-- The statements before the lock of the mailbox is taken. -/
inductive Preparing
    (target : Nat) :
    Code → Prop where
  | lockFifo {vars : PipeVars} (isTarget : vars.line.userOutId = target) :
      Preparing target (.lockFifo vars)
  | countFifo {vars : PipeVars} (isTarget : vars.line.userOutId = target) :
      Preparing target (.countFifo vars)
  | unlockFifo
      {vars : PipeVars}
      {fileName : Nat}
      (isTarget : vars.line.userOutId = target) :
      Preparing target (.unlockFifo vars fileName)
  | wait (text : String) (vars : PipeVars) :
      Preparing target (.send target .usr2 text .wait (.openFifo text vars))

/-- The statements while the lock of the mailbox is held. -/
inductive Holding
    (target : Nat)
    (mailbox : String) :
    Code → Prop where
  | copy (text : String) (vars : PipeVars) :
      Holding target mailbox
        (.send target .usr2 text .copy (.openFifo text vars))
  | filled
      {text : String}
      {stage : SendStage}
      (isStage : stage = .mark ∨ stage = .check ∨ stage = .kill)
      (isMailbox : mailbox = text)
      (vars : PipeVars) :
      Holding target mailbox
        (.send target .usr2 text stage (.openFifo text vars))

/-- How far the call of one client towards the other has come. -/
inductive Exchange
    (machine : Machine)
    (caller receiver : Nat) : Prop where
  | preparing
      (code :
        Preparing (machine.procs receiver).id (machine.procs caller).code)
      (free :
        0 < (machine.common.client (machine.procs receiver).id).lock)
      (quiescent : Quiescent machine receiver)
  | holding
      (code :
        Holding (machine.procs receiver).id
          (machine.common.client (machine.procs receiver).id).mailbox
          (machine.procs caller).code)
      (quiescent : Quiescent machine receiver)
  | opening
      {path : String}
      {vars : PipeVars}
      (code : (machine.procs caller).code = .openFifo path vars)
      (answer : Answer machine receiver path)
  | returned
      {path : String}
      (code : (machine.procs caller).code.createsUserPipe = false)
      (writer : (machine.common.fifos path).writer = true)
      (answer : Answer machine receiver path)

/-- The client is logged in and its entry names its process. -/
structure Facing
    (machine : Machine)
    (caller receiver : Nat) : Prop where
  different : caller ≠ receiver
  member : caller ∈ machine.forked
  running : (machine.procs caller).running = true
  stopped : (machine.procs caller).stopped = false
  ids : (machine.procs caller).id ≠ (machine.procs receiver).id
  pid : (machine.common.client (machine.procs caller).id).pid = caller
  state : (machine.common.client (machine.procs caller).id).state = true

/-- The fields of a process that no statement of the two clients changes. -/
structure SameIdentity
    (machine next : Machine)
    (pid : Nat) : Prop where
  running : (next.procs pid).running = (machine.procs pid).running
  stopped : (next.procs pid).stopped = (machine.procs pid).stopped
  id : (next.procs pid).id = (machine.procs pid).id

theorem Facing.congr
    {machine next : Machine}
    {caller receiver : Nat}
    (facing : Facing machine caller receiver)
    (sameCaller : SameIdentity machine next caller)
    (sameReceiver : SameIdentity machine next receiver)
    (forked : next.forked = machine.forked)
    (pid :
      ∀ i, (next.common.client i).pid = (machine.common.client i).pid)
    (state :
      ∀ i, (next.common.client i).state = (machine.common.client i).state) :
    Facing next caller receiver where
  different := facing.different
  member := by
    rw [forked]
    exact facing.member
  running := sameCaller.running.trans facing.running
  stopped := sameCaller.stopped.trans facing.stopped
  ids := by
    rw [sameCaller.id, sameReceiver.id]
    exact facing.ids
  pid := by
    rw [sameCaller.id, pid]
    exact facing.pid
  state := by
    rw [sameCaller.id, state]
    exact facing.state

/-- What the steps of the two clients keep. -/
structure Rendezvous
    (first second : Nat)
    (machine : Machine) : Prop where
  firstFacing : Facing machine first second
  secondFacing : Facing machine second first
  firstCall : Exchange machine first second
  secondCall : Exchange machine second first
  fifoLock :
    0 < machine.common.shared.fifoInfor.lock +
      (machine.procs first).code.inFifoLock.toNat +
      (machine.procs second).code.inFifoLock.toNat
  apart : ¬ (machine.Engaged first ∧ machine.Engaged second)

theorem Rendezvous.symm
    {first second : Nat}
    {machine : Machine}
    (rendezvous : Rendezvous first second machine) :
    Rendezvous second first machine where
  firstFacing := rendezvous.secondFacing
  secondFacing := rendezvous.firstFacing
  firstCall := rendezvous.secondCall
  secondCall := rendezvous.firstCall
  fifoLock := by
    have := rendezvous.fifoLock
    omega
  apart := fun both => rendezvous.apart both.symm

/-- What the other client sees of a step leaves its part as it is. -/
structure SameReceiver
    (machine next : Machine)
    (pid : Nat) : Prop where
  id : (next.procs pid).id = (machine.procs pid).id
  pending :
    (next.procs pid).pending .usr2 = (machine.procs pid).pending .usr2
  frames : (next.procs pid).frames = (machine.procs pid).frames
  lock :
    (next.common.client (machine.procs pid).id).lock =
      (machine.common.client (machine.procs pid).id).lock
  mailbox :
    (next.common.client (machine.procs pid).id).mailbox =
      (machine.common.client (machine.procs pid).id).mailbox
  reader :
    ∀ path, (machine.common.fifos path).reader = true →
      (next.common.fifos path).reader = true

theorem Answer.congr
    {machine next : Machine}
    {pid : Nat}
    {path : String}
    (answer : Answer machine pid path)
    (same : SameReceiver machine next pid) :
    Answer next pid path := by
  cases answer with
  | pending isPending frames mailbox =>
      refine .pending (same.pending.trans isPending)
        (same.frames.trans frames) ?_
      rw [same.id, same.mailbox, mailbox]
  | running notPending frames isBefore mailbox =>
      refine .running (same.pending.trans notPending)
        (same.frames.trans frames) isBefore ?_
      rw [same.id, same.mailbox, mailbox]
  | opened notPending frames reader =>
      refine .opened (same.pending.trans notPending) ?_ (same.reader _ reader)
      rw [same.frames]
      exact frames

theorem Quiescent.congr
    {machine next : Machine}
    {pid : Nat}
    (quiescent : Quiescent machine pid)
    (same : SameReceiver machine next pid) :
    Quiescent next pid :=
  ⟨same.pending.trans quiescent.1, same.frames.trans quiescent.2⟩

/-- A step that neither moves the call nor touches its receiver. -/
theorem Exchange.congr
    {machine next : Machine}
    {caller receiver : Nat}
    (exchange : Exchange machine caller receiver)
    (same : SameReceiver machine next receiver)
    (code : (next.procs caller).code = (machine.procs caller).code)
    (writer :
      ∀ path, (machine.common.fifos path).writer = true →
        (next.common.fifos path).writer = true) :
    Exchange next caller receiver := by
  cases exchange with
  | preparing isCode free quiescent =>
      refine .preparing ?_ ?_ (quiescent.congr same)
      · rw [code, same.id]
        exact isCode
      · rw [same.id, same.lock]
        exact free
  | holding isCode quiescent =>
      refine .holding ?_ (quiescent.congr same)
      rw [code, same.id, same.mailbox]
      exact isCode
  | opening isCode answer =>
      exact .opening (code.trans isCode) (answer.congr same)
  | returned isCode isWriter answer =>
      refine .returned ?_ (writer _ isWriter) (answer.congr same)
      rw [code]
      exact isCode

/-! ## The statements of the call -/

/-- What a statement of `create_user_pipe` towards `target` leaves alone. -/
structure CallEffect
    (target : Nat)
    (common : Common)
    (proc : Process)
    (common' : Common)
    (proc' : Process) : Prop where
  moves : proc' = proc.goto proc'.code
  others : ∀ i, i ≠ target → common'.client i = common.client i
  pid : ∀ i, (common'.client i).pid = (common.client i).pid
  state : ∀ i, (common'.client i).state = (common.client i).state
  reader :
    ∀ path, (common'.fifos path).reader = (common.fifos path).reader
  writer :
    ∀ path, (common.fifos path).writer = true →
      (common'.fifos path).writer = true
  fifoLock :
    common'.shared.fifoInfor.lock + proc'.code.inFifoLock.toNat =
      common.shared.fifoInfor.lock + proc.code.inFifoLock.toNat

namespace CallEffect

variable {target : Nat}
variable {common : Common}
variable {proc : Process}
variable {code : Code}

/-- A statement that writes into the entry of the target. -/
theorem setClient
    {change : ClientInfor → ClientInfor}
    (keeps :
      ∀ client,
        (change client).pid = client.pid ∧
          (change client).state = client.state)
    (outside : code.inFifoLock = proc.code.inFifoLock) :
    CallEffect target common proc (common.setClient target change)
      (proc.goto code) where
  moves := rfl
  others := fun i different => Common.client_setClient_of_ne different _ _
  pid :=
    Common.setClient_keeps ClientInfor.pid (fun client => (keeps client).1)
      common target
  state :=
    Common.setClient_keeps ClientInfor.state (fun client => (keeps client).2)
      common target
  reader := fun _ => rfl
  writer := fun _ isWriter => isWriter
  fifoLock := by
    rw [Process.goto_code, outside]
    rfl

/-- A statement that changes the fifo counter or its lock. -/
theorem setFifo
    {change : FifoInformation → FifoInformation}
    (balanced :
      (change common.shared.fifoInfor).lock + code.inFifoLock.toNat =
        common.shared.fifoInfor.lock + proc.code.inFifoLock.toNat) :
    CallEffect target common proc (common.setFifo change) (proc.goto code) where
  moves := rfl
  others := fun _ _ => rfl
  pid := fun _ => rfl
  state := fun _ => rfl
  reader := fun _ => rfl
  writer := fun _ isWriter => isWriter
  fifoLock := balanced

end CallEffect

@[simp] theorem PipeVars.inFifoLock_created
    (vars : PipeVars) :
    vars.created.inFifoLock = false := by
  unfold PipeVars.created
  split <;> rfl

@[simp] theorem PipeVars.createsUserPipe_created
    (vars : PipeVars) :
    vars.created.createsUserPipe = false := by
  unfold PipeVars.created
  split <;> rfl

/-- A client that prepares its call goes on, up to the lock of the mailbox. -/
theorem Preparing.mainStep
    {target self : Nat}
    {canOpen : String → Bool}
    {common common' : Common}
    {proc proc' : Process}
    (preparing : Preparing target proc.code)
    (steps :
      MultiProc.mainStep self canOpen common proc = some (common', proc')) :
    CallEffect target common proc common' proc' ∧
      ((Preparing target proc'.code ∧
          common'.client target = common.client target) ∨
        Holding target (common'.client target).mailbox proc'.code) := by
  generalize isCode : proc.code = code at preparing
  cases preparing with
  | lockFifo isTarget =>
      simp only [MultiProc.mainStep, isCode] at steps
      split at steps
      · rename_i free
        cases steps
        refine ⟨.setFifo ?_, Or.inl ⟨.countFifo isTarget, rfl⟩⟩
        rw [isCode]
        exact Nat.sub_add_cancel free
      · cases steps
  | countFifo isTarget =>
      simp only [MultiProc.mainStep, isCode] at steps
      cases steps
      refine ⟨.setFifo ?_, Or.inl ⟨.unlockFifo isTarget, rfl⟩⟩
      rw [isCode]
      rfl
  | @unlockFifo vars fileName isTarget =>
      simp only [MultiProc.mainStep, isCode] at steps
      cases steps
      refine ⟨.setFifo ?_, Or.inl ⟨?_, rfl⟩⟩
      · rw [isCode]
        rfl
      · rw [Process.goto_code, isTarget]
        exact .wait _ _
  | wait text vars =>
      simp only [MultiProc.mainStep, isCode, sendStep] at steps
      split at steps
      · cases steps
        have effect :
            CallEffect target common proc
              (common.setClient target fun client =>
                { client with lock := client.lock - 1 })
              (proc.goto
                (.send target .usr2 text .copy (.openFifo text vars))) :=
          .setClient (fun _ => ⟨rfl, rfl⟩) (by rw [isCode]; rfl)
        refine ⟨⟨effect.moves, effect.others, effect.pid, effect.state,
          effect.reader, effect.writer, effect.fifoLock⟩, Or.inr ?_⟩
        exact .copy _ _
      · cases steps

/-- A client that holds the mailbox fills it and goes on to its `kill`. -/
theorem Holding.mainStep
    {target self : Nat}
    {canOpen : String → Bool}
    {common common' : Common}
    {proc proc' : Process}
    (holding : Holding target (common.client target).mailbox proc.code)
    (isClient : (common.client target).state = true)
    (steps :
      MultiProc.mainStep self canOpen common proc = some (common', proc')) :
    CallEffect target common proc common' proc' ∧
      Holding target (common'.client target).mailbox proc'.code := by
  generalize isCode : proc.code = code at holding
  cases holding with
  | copy text vars =>
      simp only [MultiProc.mainStep, isCode, sendStep] at steps
      cases steps
      refine ⟨.setClient (fun _ => ⟨rfl, rfl⟩) (by rw [isCode]; rfl), ?_⟩
      rw [Common.client_setClient_self]
      exact .filled (Or.inl rfl) rfl vars
  | filled isStage isMailbox vars =>
      rcases isStage with rfl | rfl | rfl
      · simp only [MultiProc.mainStep, isCode, sendStep] at steps
        cases steps
        refine ⟨.setClient (fun _ => ⟨rfl, rfl⟩) (by rw [isCode]; rfl), ?_⟩
        rw [Common.client_setClient_self]
        exact .filled (Or.inr (Or.inl rfl)) isMailbox vars
      · simp only [MultiProc.mainStep, isCode, sendStep, isClient, if_true]
          at steps
        cases steps
        refine ⟨⟨rfl, fun _ _ => rfl, fun _ => rfl, fun _ => rfl, fun _ => rfl,
          fun _ isWriter => isWriter, ?_⟩, ?_⟩
        · rw [isCode]
          rfl
        · exact .filled (Or.inr (Or.inr rfl)) isMailbox vars
      · simp only [MultiProc.mainStep, isCode, sendStep] at steps
        cases steps

/-- The call returns from its `open`. -/
theorem mainStep_openFifo
    {target self : Nat}
    {canOpen : String → Bool}
    {common common' : Common}
    {proc proc' : Process}
    {path : String}
    {vars : PipeVars}
    (code : proc.code = .openFifo path vars)
    (steps : mainStep self canOpen common proc = some (common', proc')) :
    CallEffect target common proc common' proc' ∧
      proc'.code.createsUserPipe = false ∧
      (common'.fifos path).writer = true ∧
      ∀ i, common'.client i = common.client i := by
  simp only [mainStep, code] at steps
  split at steps
  · cases steps
    refine ⟨⟨rfl, fun _ _ => rfl, fun _ => rfl, fun _ => rfl, ?_, ?_, ?_⟩,
      vars.createsUserPipe_created, ?_, fun _ => rfl⟩
    · intro other
      by_cases here : other = path
      · subst here
        simp [Common.openEnd]
      · simp [Common.openEnd, Function.update_of_ne here]
    · intro other isWriter
      by_cases here : other = path
      · subst here
        simp [Common.openEnd]
      · simpa [Common.openEnd, Function.update_of_ne here] using isWriter
    · rw [Process.goto_code, vars.inFifoLock_created, code]
      rfl
    · simp [Common.openEnd]
  · cases steps

/-! ## The statements of the handler -/

/-- What a statement of `user_pipe_handler` leaves alone. -/
structure HandlerEffect
    (common : Common)
    (proc : Process)
    (common' : Common)
    (proc' : Process) : Prop where
  code : proc'.code = proc.code
  running : proc'.running = proc.running
  stopped : proc'.stopped = proc.stopped
  id : proc'.id = proc.id
  pending : proc'.pending = proc.pending
  others : ∀ i, i ≠ proc.id → common'.client i = common.client i
  mailbox : ∀ i, (common'.client i).mailbox = (common.client i).mailbox
  pid : ∀ i, (common'.client i).pid = (common.client i).pid
  state : ∀ i, (common'.client i).state = (common.client i).state
  reader :
    ∀ path, (common.fifos path).reader = true →
      (common'.fifos path).reader = true
  writer :
    ∀ path, (common'.fifos path).writer = (common.fifos path).writer
  fifoInfor : common'.shared.fifoInfor = common.shared.fifoInfor

/-- An `open` for reading leaves the other fifos and the writers alone. -/
theorem openEnd_reader
    (common : Common)
    (path other : String) :
    ((common.openEnd path fun ends =>
          { ends with reader := true }).fifos other).writer =
        (common.fifos other).writer ∧
      ((common.fifos other).reader = true →
        ((common.openEnd path fun ends =>
          { ends with reader := true }).fifos other).reader = true) := by
  by_cases here : other = path
  · subst here
    simp [Common.openEnd]
  · simp [Common.openEnd, Function.update_of_ne here]

/-- The handler before its `open` goes on, and opens the fifo in the mailbox. -/
theorem handlerStep_beforeOpen
    {canOpen : String → Bool}
    {fd : Nat}
    {common common' : Common}
    {proc proc' : Process}
    {frame : Frame}
    (frames : proc.frames = [frame])
    (isBefore : frame.beforeOpen = true)
    (notStopped : proc.stopped = false)
    (steps : handlerStep canOpen fd common proc = some (common', proc')) :
    HandlerEffect common proc common' proc' ∧
      ∃ following,
        proc'.frames = [following] ∧
          (following.beforeOpen = true ∨
            following.behindOpen = true ∧
              (common'.fifos
                (common.client proc.id).mailbox).reader = true) := by
  cases frame with
  | userPipeHandler =>
      simp only [handlerStep, frames, notStopped, Bool.false_eq_true,
        if_false] at steps
      cases steps
      refine ⟨?_, _, rfl, Or.inl rfl⟩
      exact ⟨rfl, rfl, notStopped.symm, rfl, rfl, fun _ _ => rfl, fun _ => rfl,
        fun _ => rfl, fun _ => rfl, fun _ isReader => isReader, fun _ => rfl,
        rfl⟩
  | openMailbox fromId =>
      simp only [handlerStep, frames] at steps
      split at steps
      · cases steps
        refine ⟨?_, _, rfl, Or.inr ⟨rfl, by simp [Common.openEnd]⟩⟩
        exact ⟨rfl, rfl, rfl, rfl, rfl, fun _ _ => rfl, fun _ => rfl,
          fun _ => rfl, fun _ => rfl,
          fun path => (openEnd_reader common _ path).2,
          fun path => (openEnd_reader common _ path).1, rfl⟩
      · cases steps
  | msgHandler | openGarbage | storePipe _ _ _ | post => cases isBefore

/-- The handler behind its `open` stores the descriptor and posts the lock. -/
theorem handlerStep_behindOpen
    {canOpen : String → Bool}
    {fd : Nat}
    {common common' : Common}
    {proc proc' : Process}
    {frame : Frame}
    (frames : proc.frames = [frame])
    (isBehind : frame.behindOpen = true)
    (steps : handlerStep canOpen fd common proc = some (common', proc')) :
    HandlerEffect common proc common' proc' ∧
      (proc'.frames = [] ∨
        ∃ following,
          proc'.frames = [following] ∧ following.behindOpen = true) := by
  have effect
      {change : ClientInfor → ClientInfor}
      (mailbox : ∀ client, (change client).mailbox = client.mailbox)
      (pid : ∀ client, (change client).pid = client.pid)
      (state : ∀ client, (change client).state = client.state)
      (frames' : List Frame)
      (registered : List (Nat × String)) :
      HandlerEffect common proc (common.setClient proc.id change)
        { proc with frames := frames', registered := registered } :=
    ⟨rfl, rfl, rfl, rfl, rfl,
      fun _ different => Common.client_setClient_of_ne different _ _,
      Common.setClient_keeps ClientInfor.mailbox mailbox common proc.id,
      Common.setClient_keeps ClientInfor.pid pid common proc.id,
      Common.setClient_keeps ClientInfor.state state common proc.id,
      fun _ isReader => isReader, fun _ => rfl, rfl⟩
  cases frame with
  | storePipe fromId path stored =>
      simp only [handlerStep, frames] at steps
      cases steps
      refine ⟨?_, Or.inr ⟨_, rfl, rfl⟩⟩
      refine effect ?_ ?_ ?_ _ _ <;> exact fun _ => rfl
  | post =>
      simp only [handlerStep, frames] at steps
      cases steps
      refine ⟨?_, Or.inl rfl⟩
      unfold Common.post
      refine effect ?_ ?_ ?_ _ proc.registered <;> exact fun _ => rfl
  | msgHandler | openGarbage | userPipeHandler | openMailbox _ => cases isBehind

/-! ## Steps of the two clients -/

/-- A frame behind the `open` is not before it. -/
theorem Frame.beforeOpen_of_behindOpen
    {frame : Frame}
    (isBehind : frame.behindOpen = true) :
    frame.beforeOpen = false := by
  cases frame with
  | storePipe | post => rfl
  | msgHandler | userPipeHandler | openGarbage | openMailbox => cases isBehind

/-- A statement of the handler brings the answer forward. -/
theorem Answer.handle
    {machine : Machine}
    {pid : Nat}
    {path : String}
    {canOpen : String → Bool}
    {fd : Nat}
    {common' : Common}
    {proc' : Process}
    (answer : Answer machine pid path)
    (notStopped : (machine.procs pid).stopped = false)
    (stepped :
      handlerStep canOpen fd machine.common (machine.procs pid) =
        some (common', proc')) :
    HandlerEffect machine.common (machine.procs pid) common' proc' ∧
      Answer (machine.setBoth pid (common', proc')) pid path ∧
      ((∃ frame, proc'.frames = [frame] ∧ frame.beforeOpen = true) →
        ∃ frame,
          (machine.procs pid).frames = [frame] ∧ frame.beforeOpen = true) := by
  cases answer with
  | pending _ frames _ =>
      rw [handlerStep, frames] at stepped
      cases stepped
  | running notPending frames isBefore mailbox =>
      obtain ⟨effect, following, isFrames, kind⟩ :=
        handlerStep_beforeOpen frames isBefore notStopped stepped
      have stillNotPending : proc'.pending .usr2 = false := by
        rw [effect.pending]
        exact notPending
      refine ⟨effect, ?_, fun _ => ⟨_, frames, isBefore⟩⟩
      rcases kind with before | ⟨behind, reader⟩
      · refine .running ?_ ?_ before ?_
        · rw [Machine.setBoth_procs_self]
          exact stillNotPending
        · rw [Machine.setBoth_procs_self]
          exact isFrames
        · rw [Machine.setBoth_procs_self, Machine.setBoth_common]
          dsimp only
          rw [effect.mailbox, effect.id]
          exact mailbox
      · rw [mailbox] at reader
        refine .opened ?_ (Or.inr ⟨following, ?_, behind⟩) reader
        · rw [Machine.setBoth_procs_self]
          exact stillNotPending
        · rw [Machine.setBoth_procs_self]
          exact isFrames
  | opened notPending frames reader =>
      rcases frames with none | ⟨frame, frames, isBehind⟩
      · rw [handlerStep, none] at stepped
        cases stepped
      · obtain ⟨effect, after⟩ :=
          handlerStep_behindOpen frames isBehind stepped
        refine ⟨effect, ?_, ?_⟩
        · refine .opened ?_ ?_ (effect.reader _ reader)
          · rw [Machine.setBoth_procs_self, effect.pending]
            exact notPending
          · rw [Machine.setBoth_procs_self]
            exact after
        · rintro ⟨other, isOther, isBefore⟩
          rcases after with none | ⟨following, isFollowing, behind⟩
          · rw [none] at isOther
            cases isOther
          · rw [isFollowing] at isOther
            cases isOther
            rw [Frame.beforeOpen_of_behindOpen behind] at isBefore
            cases isBefore

namespace Rendezvous

variable {first second : Nat}
variable {machine next : Machine}

/-- A statement of the first call, when the exchange after it is known. -/
theorem of_callEffect
    (rendezvous : Rendezvous first second machine)
    {common' : Common}
    {proc' : Process}
    (frames : (machine.procs first).frames = [])
    (effect :
      CallEffect (machine.procs second).id machine.common
        (machine.procs first) common' proc')
    (exchange :
      Exchange (machine.setBoth first (common', proc')) first second) :
    Rendezvous first second (machine.setBoth first (common', proc')) := by
  have facing := rendezvous.firstFacing
  have partner := rendezvous.secondFacing
  have sameSecond :=
    machine.setBoth_procs_of_ne partner.different (common', proc')
  have moves : (machine.setBoth first (common', proc')).procs first =
      (machine.procs first).goto proc'.code := by
    rw [Machine.setBoth_procs_self]
    exact effect.moves
  have sameEntry := effect.others _ facing.ids
  have identity :
      SameIdentity machine (machine.setBoth first (common', proc')) first := by
    constructor <;> (rw [moves]; rfl)
  have partnerIdentity :
      SameIdentity machine (machine.setBoth first (common', proc')) second := by
    constructor <;> rw [sameSecond]
  refine ⟨?_, ?_, exchange, ?_, ?_, ?_⟩
  · exact facing.congr identity partnerIdentity rfl effect.pid effect.state
  · exact partner.congr partnerIdentity identity rfl effect.pid effect.state
  · refine rendezvous.secondCall.congr ?_ (by rw [sameSecond]) effect.writer
    refine ⟨?_, ?_, ?_, ?_, ?_, ?_⟩
    · rw [moves]
      rfl
    · rw [moves]
      rfl
    · rw [moves]
      rfl
    · exact congrArg ClientInfor.lock sameEntry
    · exact congrArg ClientInfor.mailbox sameEntry
    · exact fun path isReader => (effect.reader path).trans isReader
  · have positive := rendezvous.fifoLock
    have balanced := effect.fifoLock
    rw [Machine.setBoth_procs_self, sameSecond, Machine.setBoth_common]
    dsimp only
    omega
  · -- no handler is running where the call goes on
    rintro ⟨⟨_, frame, isFrame, _⟩, _⟩
    rw [moves] at isFrame
    have isEmpty : (machine.procs first).frames = [frame] := isFrame
    rw [frames] at isEmpty
    cases isEmpty

/-- A statement of the first call. -/
theorem main
    (rendezvous : Rendezvous first second machine)
    (creates : (machine.procs first).code.createsUserPipe = true)
    (steps : machine.Steps (.main first) next) :
    Rendezvous first second next := by
  obtain ⟨_, _, frames, common', proc', stepped, rfl⟩ :=
    Machine.steps_main steps
  have sameSecond :=
    machine.setBoth_procs_of_ne rendezvous.secondFacing.different
      (common', proc')
  have sameQuiescent (quiescent : Quiescent machine second) :
      Quiescent (machine.setBoth first (common', proc')) second := by
    unfold Quiescent
    rw [sameSecond]
    exact quiescent
  cases rendezvous.firstCall with
  | preparing code free quiescent =>
      obtain ⟨effect, following⟩ := code.mainStep stepped
      apply rendezvous.of_callEffect frames effect
      rcases following with ⟨preparing, sameEntry⟩ | holding
      · refine .preparing ?_ ?_ (sameQuiescent quiescent)
        · rw [Machine.setBoth_procs_self, sameSecond]
          exact preparing
        · rw [sameSecond, Machine.setBoth_common, sameEntry]
          exact free
      · refine .holding ?_ (sameQuiescent quiescent)
        rw [Machine.setBoth_procs_self, sameSecond]
        exact holding
  | holding code quiescent =>
      obtain ⟨effect, holding⟩ :=
        code.mainStep rendezvous.secondFacing.state stepped
      apply rendezvous.of_callEffect frames effect
      refine .holding ?_ (sameQuiescent quiescent)
      rw [Machine.setBoth_procs_self, sameSecond]
      exact holding
  | opening code answer =>
      obtain ⟨effect, returns, writer, sameEntries⟩ :=
        mainStep_openFifo code stepped
      apply rendezvous.of_callEffect frames effect
      refine .returned ?_ writer (answer.congr ?_)
      · rw [Machine.setBoth_procs_self]
        exact returns
      · refine ⟨by rw [sameSecond], by rw [sameSecond], by rw [sameSecond],
          ?_, ?_, ?_⟩
        · exact congrArg ClientInfor.lock (sameEntries _)
        · exact congrArg ClientInfor.mailbox (sameEntries _)
        · exact fun path isReader => (effect.reader path).trans isReader
  | returned code => simp [creates] at code

/-- The first call sends its signal. -/
theorem kill
    (rendezvous : Rendezvous first second machine)
    (creates : (machine.procs first).code.createsUserPipe = true)
    (steps : machine.Steps (.kill first) next) :
    Rendezvous first second next := by
  obtain ⟨_, _, _, target, signal, text, after, code, rfl⟩ :=
    Machine.steps_kill steps
  have facing := rendezvous.firstFacing
  have partner := rendezvous.secondFacing
  -- the only exchange with the code at its `kill` is one that has filled the mailbox
  obtain ⟨rfl, rfl, vars, rfl, isMailbox, quiescent⟩ :
      target = (machine.procs second).id ∧ signal = .usr2 ∧
        ∃ vars, after = .openFifo text vars ∧
          (machine.common.client (machine.procs second).id).mailbox = text ∧
          Quiescent machine second := by
    cases rendezvous.firstCall with
    | preparing isCode =>
        rw [code] at isCode
        cases isCode
    | holding isCode quiescent =>
        rw [code] at isCode
        cases isCode with
        | filled isStage isMailbox vars =>
            exact ⟨rfl, rfl, vars, rfl, isMailbox, quiescent⟩
    | opening isCode =>
        rw [code] at isCode
        cases isCode
    | returned notCreating =>
        rw [creates] at notCreating
        cases notCreating
  have atFirst :
      ((machine.kill first (machine.procs second).id .usr2 text
          (.openFifo text vars)).procs first) =
        (machine.procs first).goto (.openFifo text vars) := by
    simp [Machine.kill, Machine.setProc, partner.pid, facing.different,
      AfterSend.signalled]
  have atSecond :
      ((machine.kill first (machine.procs second).id .usr2 text
          (.openFifo text vars)).procs second) =
        (machine.procs second).receive
          { sender := first
            fromId := (machine.procs first).id
            signal := .usr2
            text := text } := by
    simp [Machine.kill, Machine.setProc, partner.pid,
      Function.update_of_ne partner.different]
  rw [Process.receive, if_pos partner.running] at atSecond
  have identity :
      SameIdentity machine
        (machine.kill first (machine.procs second).id .usr2 text
          (.openFifo text vars)) first := by
    constructor <;> (rw [atFirst]; rfl)
  have partnerIdentity :
      SameIdentity machine
        (machine.kill first (machine.procs second).id .usr2 text
          (.openFifo text vars)) second := by
    constructor <;> rw [atSecond]
  refine ⟨?_, ?_, ?_, ?_, ?_, ?_⟩
  · exact facing.congr identity partnerIdentity rfl (fun _ => rfl) fun _ => rfl
  · exact partner.congr partnerIdentity identity rfl (fun _ => rfl) fun _ => rfl
  · refine .opening (by rw [atFirst]; rfl) (.pending ?_ ?_ ?_)
    · rw [atSecond]
      simp
    · rw [atSecond]
      exact quiescent.2
    · rw [atSecond]
      exact isMailbox
  · refine rendezvous.secondCall.congr ?_ (by rw [atSecond])
      fun _ isWriter => isWriter
    refine ⟨?_, ?_, ?_, rfl, rfl, fun _ isReader => isReader⟩
    · rw [atFirst]
      rfl
    · rw [atFirst]
      rfl
    · rw [atFirst]
      rfl
  · have positive := rendezvous.fifoLock
    rw [code] at positive
    rw [atFirst, atSecond]
    exact positive
  · rintro ⟨_, _, frame, isFrame, _⟩
    rw [atSecond] at isFrame
    have isEmpty : (machine.procs second).frames = [frame] := isFrame
    rw [quiescent.2] at isEmpty
    cases isEmpty

/-- The process that receives a signal is answering one. -/
theorem answer_of_signalled
    (rendezvous : Rendezvous first second machine)
    (signalled :
      (machine.procs first).pending .usr2 = true ∨
        (machine.procs first).frames ≠ []) :
    ∃ path, Answer machine first path ∧
      ((∃ vars, (machine.procs second).code = .openFifo path vars) ∨
        (machine.procs second).code.createsUserPipe = false ∧
          (machine.common.fifos path).writer = true) := by
  have notQuiescent : ¬ Quiescent machine first := by
    rintro ⟨notPending, noFrames⟩
    rcases signalled with isPending | hasFrames
    · rw [notPending] at isPending
      cases isPending
    · exact hasFrames noFrames
  cases rendezvous.secondCall with
  | preparing _ _ quiescent => exact absurd quiescent notQuiescent
  | holding _ quiescent => exact absurd quiescent notQuiescent
  | opening code answer => exact ⟨_, answer, Or.inl ⟨_, code⟩⟩
  | returned code writer answer => exact ⟨_, answer, Or.inr ⟨code, writer⟩⟩

/-- The first client takes the signal of the second. -/
theorem deliver
    (rendezvous : Rendezvous first second machine)
    (apart :
      (∃ path vars, (machine.procs first).code = .openFifo path vars) →
        ¬ machine.Engaged second)
    (steps : machine.Steps (.deliver first .usr2) next) :
    Rendezvous first second next := by
  obtain ⟨_, _, isPending, rfl⟩ := Machine.steps_deliver steps
  have facing := rendezvous.firstFacing
  have partner := rendezvous.secondFacing
  have atFirst :
      (machine.setProc first
          ((machine.procs first).interrupt .usr2)).procs first =
        (machine.procs first).interrupt .usr2 := by
    rw [Machine.setProc_procs_self]
  have atSecond :
      (machine.setProc first
          ((machine.procs first).interrupt .usr2)).procs second =
        machine.procs second := by
    rw [Machine.setProc_procs_of_ne partner.different]
  have identity :
      SameIdentity machine
        (machine.setProc first ((machine.procs first).interrupt .usr2))
        first := by
    constructor <;> (rw [atFirst]; rfl)
  have partnerIdentity :
      SameIdentity machine
        (machine.setProc first ((machine.procs first).interrupt .usr2))
        second := by
    constructor <;> rw [atSecond]
  have answered {path : String} (answer : Answer machine first path) :
      Answer (machine.setProc first ((machine.procs first).interrupt .usr2))
        first path := by
    cases answer with
    | pending _ frames mailbox =>
        have entered :
            ((machine.setProc first
              ((machine.procs first).interrupt .usr2)).procs first).frames =
                [.userPipeHandler] := by
          rw [atFirst]
          simp [Process.interrupt, frames, Signal.handler]
        refine .running ?_ entered rfl ?_
        · rw [atFirst]
          simp [Process.interrupt]
        · rw [atFirst]
          exact mailbox
    | running notPending | opened notPending =>
        rw [isPending] at notPending
        cases notPending
  refine ⟨?_, ?_, ?_, ?_, ?_, ?_⟩
  · exact facing.congr identity partnerIdentity rfl (fun _ => rfl) fun _ => rfl
  · exact partner.congr partnerIdentity identity rfl (fun _ => rfl) fun _ => rfl
  · refine rendezvous.firstCall.congr ?_ (by rw [atFirst]; rfl)
      fun _ isWriter => isWriter
    refine ⟨by rw [atSecond], by rw [atSecond], by rw [atSecond], rfl, rfl,
      fun _ isReader => isReader⟩
  · cases rendezvous.secondCall with
    | preparing _ _ quiescent | holding _ quiescent =>
        rw [quiescent.1] at isPending
        cases isPending
    | opening code answer =>
        exact .opening (by rw [atSecond]; exact code) (answered answer)
    | returned code writer answer =>
        exact .returned (by rw [atSecond]; exact code) writer (answered answer)
  · have positive := rendezvous.fifoLock
    rw [atFirst, atSecond]
    exact positive
  · rintro ⟨⟨atOpen, _⟩, engaged⟩
    unfold Machine.Engaged at engaged
    rw [atFirst] at atOpen
    rw [atSecond] at engaged
    exact apart atOpen engaged

/-- A statement of the handler in the first client. -/
theorem handle
    (rendezvous : Rendezvous first second machine)
    {fd : Nat}
    (steps : machine.Steps (.handle first fd) next) :
    Rendezvous first second next := by
  obtain ⟨_, _, common', proc', stepped, rfl⟩ := Machine.steps_handle steps
  have facing := rendezvous.firstFacing
  have partner := rendezvous.secondFacing
  have sameSecond :=
    machine.setBoth_procs_of_ne partner.different (common', proc')
  have hasFrames : (machine.procs first).frames ≠ [] := by
    intro noFrames
    rw [handlerStep, noFrames] at stepped
    cases stepped
  obtain ⟨path, answer, call⟩ :=
    rendezvous.answer_of_signalled (Or.inr hasFrames)
  obtain ⟨effect, answered, wasBefore⟩ :=
    answer.handle facing.stopped stepped
  have identity :
      SameIdentity machine (machine.setBoth first (common', proc')) first := by
    constructor <;> rw [Machine.setBoth_procs_self]
    · exact effect.running
    · exact effect.stopped
    · exact effect.id
  have partnerIdentity :
      SameIdentity machine (machine.setBoth first (common', proc')) second := by
    constructor <;> rw [sameSecond]
  have sameEntry := effect.others _ partner.ids
  refine ⟨?_, ?_, ?_, ?_, ?_, ?_⟩
  · exact facing.congr identity partnerIdentity rfl effect.pid effect.state
  · exact partner.congr partnerIdentity identity rfl effect.pid effect.state
  · refine rendezvous.firstCall.congr ?_ ?_ ?_
    · refine ⟨by rw [sameSecond], by rw [sameSecond], by rw [sameSecond], ?_, ?_,
        effect.reader⟩
      · exact congrArg ClientInfor.lock sameEntry
      · exact congrArg ClientInfor.mailbox sameEntry
    · rw [Machine.setBoth_procs_self]
      exact effect.code
    · exact fun other isWriter => (effect.writer other).trans isWriter
  · rcases call with ⟨vars, code⟩ | ⟨code, writer⟩
    · exact .opening (by rw [sameSecond]; exact code) answered
    · refine .returned (by rw [sameSecond]; exact code) ?_ answered
      exact (effect.writer path).trans writer
  · have positive := rendezvous.fifoLock
    rw [Machine.setBoth_procs_self, sameSecond, Machine.setBoth_common]
    dsimp only
    rw [effect.fifoInfor, effect.code]
    exact positive
  · rintro ⟨⟨atOpen, isBefore⟩, engaged⟩
    rw [Machine.setBoth_procs_self] at atOpen isBefore
    unfold Machine.Engaged at engaged
    rw [sameSecond] at engaged
    dsimp only at atOpen isBefore
    rw [effect.code] at atOpen
    exact rendezvous.apart ⟨⟨atOpen, wasBefore isBefore⟩, engaged⟩

/-- Every step that meets the condition keeps the rendezvous. -/
theorem step
    (rendezvous : Rendezvous first second machine)
    {action : Action}
    (apart : machine.deliversApart first second action = true)
    (steps : machine.PairSteps first second action next) :
    Rendezvous first second next := by
  obtain ⟨acts, steps⟩ := steps
  have notEngaged {pid other : Nat} {signal : Signal}
      (isDeliver : action = .deliver pid signal)
      (isOther : (if pid = first then second else first) = other)
      (atOpen : ∃ path vars, (machine.procs pid).code = .openFifo path vars) :
      ¬ machine.Engaged other := by
    intro isEngaged
    obtain ⟨path, vars, code⟩ := atOpen
    rw [isDeliver] at apart
    simp [Machine.deliversApart, code, Code.opensFifo, isOther,
      isEngaged.engaged] at apart
  cases action with
  | main pid =>
      obtain ⟨rfl | rfl, creates⟩ := acts
      · exact rendezvous.main creates steps
      · exact (rendezvous.symm.main creates steps).symm
  | kill pid =>
      obtain ⟨rfl | rfl, creates⟩ := acts
      · exact rendezvous.kill creates steps
      · exact (rendezvous.symm.kill creates steps).symm
  | deliver pid signal =>
      obtain ⟨rfl | rfl, rfl⟩ := acts
      · exact rendezvous.deliver (notEngaged rfl (if_pos rfl)) steps
      · have different := rendezvous.secondFacing.different
        exact (rendezvous.symm.deliver (notEngaged rfl (if_neg different))
          steps).symm
  | handle pid fd =>
      obtain rfl | rfl := acts
      · exact rendezvous.handle steps
      · exact (rendezvous.symm.handle steps).symm
  | fork | waitLock | waitRoom | line | exit => exact acts.elim

/-! ## Some step is possible -/

/-- A statement outside the handlers that does not wait. -/
theorem main_goesOn
    (rendezvous : Rendezvous first second machine)
    (frames : (machine.procs first).frames = [])
    (creates : (machine.procs first).code.createsUserPipe = true)
    (isSome :
      (mainStep first machine.canOpenWriter machine.common
        (machine.procs first)).isSome = true) :
    ∃ action next, machine.PairSteps first second action next := by
  obtain ⟨result, stepped⟩ := Option.isSome_iff_exists.mp isSome
  have runs : machine.mainRuns first = true :=
    Machine.mainRuns_iff.mpr
      ⟨rendezvous.firstFacing.member, rendezvous.firstFacing.running, frames⟩
  refine ⟨.main first, machine.setBoth first result,
    ⟨Or.inl rfl, creates⟩, ?_⟩
  simp [Machine.Steps, Machine.step, runs, stepped]

/-- A statement of the handler that does not wait. -/
theorem handle_goesOn
    (rendezvous : Rendezvous first second machine)
    (isSome :
      (handlerStep machine.canOpenReader 0 machine.common
        (machine.procs first)).isSome = true) :
    ∃ action next, machine.PairSteps first second action next := by
  obtain ⟨result, stepped⟩ := Option.isSome_iff_exists.mp isSome
  refine ⟨.handle first 0, machine.setBoth first result, Or.inl rfl, ?_⟩
  simp [Machine.Steps, Machine.step, rendezvous.firstFacing.member,
    rendezvous.firstFacing.running, stepped]

theorem symm_goesOn
    (goesOn : ∃ action next, machine.PairSteps second first action next) :
    ∃ action next, machine.PairSteps first second action next := by
  obtain ⟨action, next, acts, steps⟩ := goesOn
  refine ⟨action, next, ?_, steps⟩
  cases action with
  | main | kill | deliver => exact ⟨acts.1.symm, acts.2⟩
  | handle => exact Or.symm acts
  | fork | waitLock | waitRoom | line | exit => exact acts.elim

/-- A client under the lock of the fifo counter goes on. -/
theorem fifoLock_goesOn
    (rendezvous : Rendezvous first second machine)
    (frames : (machine.procs first).frames = [])
    (inFifoLock : (machine.procs first).code.inFifoLock = true) :
    ∃ action next, machine.PairSteps first second action next := by
  cases code : (machine.procs first).code with
  | countFifo vars | unlockFifo vars fileName =>
      apply rendezvous.main_goesOn frames
      · rw [code]
        rfl
      · simp [mainStep, code]
  | _ =>
      rw [code] at inFifoLock
      cases inFifoLock

/-- A call whose signal is answered, or not sent yet, goes on. -/
theorem call_goesOn
    (rendezvous : Rendezvous first second machine)
    (frames : (machine.procs first).frames = [])
    (creates : (machine.procs first).code.createsUserPipe = true)
    (quiescent : Quiescent machine second) :
    ∃ action next, machine.PairSteps first second action next := by
  have goes := rendezvous.main_goesOn frames creates
  cases rendezvous.firstCall with
  | preparing isCode free _ =>
      generalize code : (machine.procs first).code = statement at isCode
      cases isCode with
      | lockFifo isTarget =>
          by_cases unlocked : 0 < machine.common.shared.fifoInfor.lock
          · apply goes
            simp [mainStep, code, unlocked]
          · have holder := rendezvous.fifoLock
            rw [code] at holder
            have locked : (machine.procs second).code.inFifoLock = true := by
              by_contra notLocked
              rw [Bool.not_eq_true] at notLocked
              rw [notLocked] at holder
              simp only [Code.inFifoLock, Bool.toNat_false] at holder
              omega
            exact symm_goesOn
              (rendezvous.symm.fifoLock_goesOn quiescent.2 locked)
      | countFifo | unlockFifo =>
          apply goes
          simp [mainStep, code]
      | wait =>
          apply goes
          simp [mainStep, code, sendStep, free]
  | holding isCode _ =>
      generalize code : (machine.procs first).code = statement at isCode
      cases isCode with
      | copy =>
          apply goes
          simp [mainStep, code, sendStep]
      | @filled text stage isStage isMailbox vars =>
          rcases isStage with rfl | rfl | rfl
          · apply goes
            simp [mainStep, code, sendStep]
          · apply goes
            simp [mainStep, code, sendStep, rendezvous.secondFacing.state]
          · have runs : machine.mainRuns first = true :=
              Machine.mainRuns_iff.mpr
                ⟨rendezvous.firstFacing.member,
                  rendezvous.firstFacing.running, frames⟩
            refine ⟨.kill first,
              machine.kill first (machine.procs second).id .usr2 text
                (.openFifo text vars),
              ⟨Or.inl rfl, creates⟩, ?_⟩
            simp [Machine.Steps, Machine.step, runs, code]
  | opening code answer =>
      cases answer with
      | pending isPending =>
          rw [quiescent.1] at isPending
          cases isPending
      | running _ isFrame =>
          rw [quiescent.2] at isFrame
          cases isFrame
      | opened _ _ reader =>
          apply goes
          simp [mainStep, code, Machine.canOpenWriter, reader]
  | returned code =>
      rw [creates] at code
      cases code

/-- A running handler goes on unless it waits for an `open` below a handler. -/
theorem handler_goesOn
    (rendezvous : Rendezvous first second machine)
    (hasFrames : (machine.procs first).frames ≠ [])
    (reachable :
      (machine.procs second).frames = [] ∨
        ¬ ((∃ path vars,
            (machine.procs second).code = .openFifo path vars) ∧
          ∃ frame,
            (machine.procs first).frames = [frame] ∧
              frame.beforeOpen = true)) :
    ∃ action next, machine.PairSteps first second action next := by
  obtain ⟨path, answer, call⟩ :=
    rendezvous.answer_of_signalled (Or.inr hasFrames)
  apply rendezvous.handle_goesOn
  cases answer with
  | pending _ frames => exact absurd frames hasFrames
  | @running frame _ frames isBefore mailbox =>
      have canOpen : machine.canOpenReader path = true := by
        rcases call with ⟨vars, code⟩ | ⟨_, writer⟩
        · rcases reachable with noFrames | notBelow
          · simp only [Machine.canOpenReader, Bool.or_eq_true,
              decide_eq_true_eq]
            refine Or.inr ⟨second, rendezvous.secondFacing.member, ?_⟩
            simp [Process.opensForWriting, rendezvous.secondFacing.running,
              noFrames, code]
          · exact absurd ⟨⟨path, vars, code⟩, frame, frames, isBefore⟩ notBelow
        · simp [Machine.canOpenReader, writer]
      cases frame with
      | userPipeHandler =>
          simp [handlerStep, frames, rendezvous.firstFacing.stopped]
      | openMailbox fromId => simp [handlerStep, frames, mailbox, canOpen]
      | msgHandler | openGarbage | storePipe | post => cases isBefore
  | opened _ frames =>
      rcases frames with noFrames | ⟨frame, frames, isBehind⟩
      · exact absurd noFrames hasFrames
      · cases frame with
        | storePipe | post => simp [handlerStep, frames]
        | msgHandler | userPipeHandler | openGarbage | openMailbox =>
            cases isBehind

/-- A pending signal can be taken. -/
theorem deliver_goesOn
    (rendezvous : Rendezvous first second machine)
    (isPending : (machine.procs first).pending .usr2 = true) :
    ∃ action next, machine.PairSteps first second action next := by
  refine ⟨.deliver first .usr2,
    machine.setProc first ((machine.procs first).interrupt .usr2),
    ⟨Or.inl rfl, rfl⟩, ?_⟩
  simp [Machine.Steps, Machine.step, rendezvous.firstFacing.member,
    rendezvous.firstFacing.running, isPending]

/-- Two clients in a rendezvous are not stuck. -/
theorem goesOn
    (rendezvous : Rendezvous first second machine) :
    machine.GoesOn first second := by
  intro unfinished
  by_cases noFrames : (machine.procs first).frames = []
  · by_cases noOther : (machine.procs second).frames = []
    · by_cases isPending : (machine.procs first).pending .usr2 = true
      · exact rendezvous.deliver_goesOn isPending
      · by_cases otherPending : (machine.procs second).pending .usr2 = true
        · exact symm_goesOn (rendezvous.symm.deliver_goesOn otherPending)
        · rw [Bool.not_eq_true] at isPending otherPending
          by_cases creates :
              (machine.procs first).code.createsUserPipe = true
          · exact rendezvous.call_goesOn noFrames creates
              ⟨otherPending, noOther⟩
          · by_cases otherCreates :
                (machine.procs second).code.createsUserPipe = true
            · exact symm_goesOn
                (rendezvous.symm.call_goesOn noOther otherCreates
                  ⟨isPending, noFrames⟩)
            · rw [Bool.not_eq_true] at creates otherCreates
              exact absurd
                ⟨⟨creates, isPending, noFrames⟩,
                  ⟨otherCreates, otherPending, noOther⟩⟩ unfinished
    · exact symm_goesOn
        (rendezvous.symm.handler_goesOn noOther (Or.inl noFrames))
  · by_cases blocked :
        (∃ path vars, (machine.procs second).code = .openFifo path vars) ∧
          ∃ frame,
            (machine.procs first).frames = [frame] ∧ frame.beforeOpen = true
    · by_cases noOther : (machine.procs second).frames = []
      · exact rendezvous.handler_goesOn noFrames (Or.inl noOther)
      · -- the other handler waits as well only if both are engaged
        refine symm_goesOn
          (rendezvous.symm.handler_goesOn noOther (Or.inr ?_))
        rintro ⟨atOpen, isBefore⟩
        exact rendezvous.apart ⟨⟨atOpen, blocked.2⟩, blocked.1, isBefore⟩
    · exact rendezvous.handler_goesOn noFrames (Or.inr blocked)

end Rendezvous

/-! ## Runs of the two clients -/

/-- The statement before a call towards a client. -/
def Code.startsCall
    (target : Nat) :
    Code → Bool
  | .lockFifo vars => decide (vars.line.userOutId = target)
  | _ => false

/--
Two connected clients are about to call `create_user_pipe` towards each other;
their mailboxes and the fifo counter are free.
-/
structure PairStarts
    (first second : Nat)
    (machine : Machine) : Prop where
  firstFacing : Facing machine first second
  secondFacing : Facing machine second first
  firstCalls :
    (machine.procs first).code.startsCall (machine.procs second).id = true
  secondCalls :
    (machine.procs second).code.startsCall (machine.procs first).id = true
  firstFree : 0 < (machine.common.client (machine.procs first).id).lock
  secondFree : 0 < (machine.common.client (machine.procs second).id).lock
  firstQuiescent : Quiescent machine first
  secondQuiescent : Quiescent machine second
  fifoFree : 0 < machine.common.shared.fifoInfor.lock

theorem Preparing.of_startsCall
    {target : Nat}
    {code : Code}
    (starts : code.startsCall target = true) :
    Preparing target code := by
  cases code with
  | lockFifo vars => exact .lockFifo (of_decide_eq_true starts)
  | _ => cases starts

/-- The calls start in a rendezvous. -/
theorem PairStarts.rendezvous
    {first second : Nat}
    {machine : Machine}
    (starts : PairStarts first second machine) :
    Rendezvous first second machine where
  firstFacing := starts.firstFacing
  secondFacing := starts.secondFacing
  firstCall :=
    .preparing (.of_startsCall starts.firstCalls) starts.secondFree
      starts.secondQuiescent
  secondCall :=
    .preparing (.of_startsCall starts.secondCalls) starts.firstFree
      starts.firstQuiescent
  fifoLock := by
    have := starts.fifoFree
    omega
  apart := by
    rintro ⟨⟨_, frame, isFrame, _⟩, _⟩
    rw [starts.firstQuiescent.2] at isFrame
    cases isFrame

/--
In every run of the two clients in which no signal is taken at the `open` of a
call while the other client is engaged, as long as one of the two has not
finished, one of them can go on.
-/
theorem userPipes_goOn
    {first second : Nat}
    {machine : Machine}
    (starts : PairStarts first second machine)
    {path : List (Action × Machine)}
    (isPath : Path (Machine.PairSteps first second) machine path)
    (apart :
      EveryStep
        (fun machine action =>
          machine.deliversApart first second action = true)
        machine path) :
    EveryState (Machine.GoesOn first second) machine path := by
  have rendezvous : EveryState (Rendezvous first second) machine path := by
    refine Path.everyState_of_everyStep ?_ starts.rendezvous isPath apart
    intro before action next rendezvous delivers steps
    exact rendezvous.step delivers steps
  exact rendezvous.mono fun _ rendezvous => rendezvous.goesOn

/-- The entry of a client that has logged in. -/
def loggedInEntry (pid : Nat) : ClientInfor where
  pid := pid
  state := true
  name := noName
  mailbox := ""
  fromId := 0
  userPipe := fun _ => -1
  lock := 1

/-- A client that is about to create a pipe. -/
def callingProcess (id target : Nat) : Process :=
  { Process.forked "" with
    id := id
    code :=
      .lockFifo
        { line := pipeLine target
          upipeReadFd := -1
          userOutState := true } }

/-- The clients 1 and 2 have sent `ls >2` and `ls >1`. -/
def facingMachine : Machine where
  common :=
    { shared :=
        { Shared.createSharedMem 5 with
          clientList := fun i =>
            if i = 1 then loggedInEntry 10
            else if i = 2 then loggedInEntry 11
            else (Shared.createSharedMem 5).clientList i
          connectState := { clientNum := 2, minId := 3, lock := 0, lock2 := 1 } }
      fifos := fun _ => { reader := false, writer := false }
      acquired := fun _ => [] }
  parent := .accept
  forked := {10, 11}
  procs := fun pid =>
    if pid = 10 then callingProcess 1 2
    else if pid = 11 then callingProcess 2 1
    else { Process.forked "" with running := false }

theorem pairStarts_facingMachine : PairStarts 10 11 facingMachine where
  firstFacing := ⟨by decide, by decide, rfl, rfl, by decide, rfl, rfl⟩
  secondFacing := ⟨by decide, by decide, rfl, rfl, by decide, rfl, rfl⟩
  firstCalls := rfl
  secondCalls := rfl
  firstFree := by decide
  secondFree := by decide
  firstQuiescent := ⟨rfl, rfl⟩
  secondQuiescent := ⟨rfl, rfl⟩
  fifoFree := by decide

/-- The run of some actions of the two clients. -/
@[irreducible] def facingPath
    (actions : List Action) : List (Action × Machine) :=
  (trace Machine.step facingMachine actions).getD []

theorem path_facingPath
    {actions : List Action}
    (completes : (trace Machine.step facingMachine actions).isSome = true)
    (acts :
      EveryStep (Machine.PairActs 10 11) facingMachine (facingPath actions)) :
    Path (Machine.PairSteps 10 11) facingMachine (facingPath actions) := by
  have isPath : Path Machine.Steps facingMachine (facingPath actions) := by
    unfold facingPath
    exact path_trace completes
  exact isPath.restrict acts

/-- Both clients have sent their signals. -/
def signalledActions : List Action :=
  List.replicate 7 (Action.main 10) ++ [Action.kill 10] ++ List.replicate 7 (Action.main 11) ++
    [Action.kill 11]

/-- The first handler opens its end before the second signal is taken. -/
def apartActions : List Action :=
  signalledActions ++
    [.deliver 10 .usr2, .handle 10 3, .handle 10 3, .deliver 11 .usr2,
      .handle 10 3]

/-- Signals that are taken apart leave a step to the clients. -/
theorem userPipes_goOn_apart :
    (lastState facingMachine (facingPath apartActions)).GoesOn 10 11 := by
  have isPath :
      Path (Machine.PairSteps 10 11) facingMachine
        (facingPath apartActions) :=
    path_facingPath (by decide +kernel) (by decide +kernel)
  exact (userPipes_goOn pairStarts_facingMachine isPath
    (by decide +kernel)).last

/-- Both signals are taken at the `open` of the calls. -/
def engagedActions : List Action :=
  signalledActions ++
    [.deliver 10 .usr2, .handle 10 3, .deliver 11 .usr2, .handle 11 3]

/-- The handler of the process waits in its `open`, above an unfinished call. -/
def Machine.waitsInHandler
    (machine : Machine)
    (pid : Nat) : Bool :=
  (machine.procs pid).code.createsUserPipe &&
    !(machine.procs pid).pending .usr2 &&
    match (machine.procs pid).frames with
    | .openMailbox _ :: _ =>
        !machine.canOpenReader
          (machine.common.client (machine.procs pid).id).mailbox
    | _ => false

/-- A process that waits in its handler has no step. -/
theorem Machine.no_step_of_waitsInHandler
    {first second pid : Nat}
    {machine next : Machine}
    {action : Action}
    (waits : machine.waitsInHandler pid = true)
    (isAction :
      action = .main pid ∨ action = .kill pid ∨
        action = .deliver pid .usr2 ∨ ∃ fd, action = .handle pid fd) :
    ¬ machine.PairSteps first second action next := by
  rintro ⟨_, steps⟩
  unfold waitsInHandler at waits
  split at waits
  · rename_i fromId below frames
    simp only [Bool.and_eq_true, Bool.not_eq_eq_eq_not, Bool.not_true] at waits
    obtain ⟨⟨_, notPending⟩, cannotOpen⟩ := waits
    rcases isAction with rfl | rfl | rfl | ⟨fd, rfl⟩
    · obtain ⟨_, _, noFrames, _⟩ := steps_main steps
      rw [frames] at noFrames
      cases noFrames
    · obtain ⟨_, _, noFrames, _⟩ := steps_kill steps
      rw [frames] at noFrames
      cases noFrames
    · obtain ⟨_, _, isPending, _⟩ := steps_deliver steps
      rw [notPending] at isPending
      cases isPending
    · obtain ⟨_, _, _, _, stepped, _⟩ := steps_handle steps
      simp [handlerStep, frames, cannotOpen] at stepped
  · simp at waits

/-- Both handlers wait, and neither client can go on. -/
theorem userPipes_stuck :
    Path (Machine.PairSteps 10 11) facingMachine (facingPath engagedActions) ∧
      ¬ (lastState facingMachine (facingPath engagedActions)).GoesOn 10 11 := by
  refine ⟨path_facingPath (by decide +kernel) (by decide +kernel), ?_⟩
  have firstWaits :
      (lastState facingMachine
        (facingPath engagedActions)).waitsInHandler 10 = true := by
    decide +kernel
  have secondWaits :
      (lastState facingMachine
        (facingPath engagedActions)).waitsInHandler 11 = true := by
    decide +kernel
  have unfinished :
      ((lastState facingMachine
        (facingPath engagedActions)).procs 10).code.createsUserPipe = true := by
    decide +kernel
  intro goesOn
  obtain ⟨action, next, acts, steps⟩ := goesOn fun finished => by
    rw [finished.1.1] at unfinished
    cases unfinished
  have waits {pid : Nat} (isPid : pid = 10 ∨ pid = 11) :
      (lastState facingMachine
        (facingPath engagedActions)).waitsInHandler pid = true := by
    rcases isPid with rfl | rfl
    · exact firstWaits
    · exact secondWaits
  cases action with
  | main pid =>
      exact Machine.no_step_of_waitsInHandler (waits acts.1) (Or.inl rfl)
        ⟨acts, steps⟩
  | kill pid =>
      exact Machine.no_step_of_waitsInHandler (waits acts.1)
        (Or.inr (Or.inl rfl)) ⟨acts, steps⟩
  | deliver pid signal =>
      obtain ⟨isPid, rfl⟩ := acts
      exact Machine.no_step_of_waitsInHandler (waits isPid)
        (Or.inr (Or.inr (Or.inl rfl))) ⟨⟨isPid, rfl⟩, steps⟩
  | handle pid fd =>
      exact Machine.no_step_of_waitsInHandler (waits acts)
        (Or.inr (Or.inr (Or.inr ⟨fd, rfl⟩))) ⟨acts, steps⟩
  | fork | waitLock | waitRoom | line | exit => exact acts

end NpServers.MultiProc
