import NpServers.SessionWiring
import NpServers.Custody
import Mathlib.Algebra.BigOperators.Group.Finset.Piecewise

namespace NpServers.MultiProc

open Shell TransitionPath

/-!
# Admission of clients by the parent

The parent of `np_multi_proc.c` forks a session for each connection.  Before it
accepts the next one it waits for the session to post `lock`, and then until
`client_num` is below the maximum.

Three things are passed around.  `lock2` is a mutex among the sessions.  `lock`
is a ticket: the parent has it while it may fork, the session takes it along and
posts it at the end of its login.  And `client_num` counts the sessions that are
past their increment and not yet past their decrement.
-/

/-! ## The stages of a session -/

/-- The parts of a session, as far as the counters are concerned. -/
inductive SessionStage where
  | arriving
  | entering
  | counted
  | posted
  | online
  | leaving
  | uncounted
  | gone
  deriving Repr, DecidableEq

/-- A broadcast of the logout section. -/
def AfterBroadcast.stage :
    AfterBroadcast → SessionStage
  | .unlockLogout => .uncounted
  | _ => .online

/-- A message of the logout section. -/
def AfterSend.stage :
    AfterSend → SessionStage
  | .broadcast _ _ after => after.stage
  | _ => .online

/-- The stage that a statement belongs to. -/
def Code.stage :
    Code → SessionStage
  | .lockLogin => .arriving
  | .takeId | .countLogin => .entering
  | .storePid | .storeState | .storeName | .scanMinId | .postLock => .counted
  | .unlockLogin => .posted
  | .clearState | .clearRow | .clearColumn _ _ | .countLogout _ => .leaving
  | .lowerMinId _ | .unlockLogout => .uncounted
  | .broadcast _ _ after => after.stage
  | .send _ _ _ _ after => after.stage
  | .exit => .gone
  | _ => .online

namespace SessionStage

/-- The session holds `lock2`. -/
def inLock2 : SessionStage → Bool
  | .entering | .counted | .posted | .leaving | .uncounted => true
  | .arriving | .online | .gone => false

/-- The login section is not finished. -/
def loggingIn : SessionStage → Bool
  | .arriving | .entering | .counted | .posted => true
  | _ => false

/-- The logout section is finished. -/
def loggedOut : SessionStage → Bool
  | .gone => true
  | _ => false

/-- One while the session holds `lock2`. -/
def mutex (stage : SessionStage) : Nat :=
  stage.inLock2.toNat

/-- One while the session has not posted `lock`. -/
def ticket : SessionStage → Nat
  | .arriving | .entering | .counted => 1
  | _ => 0

/-- One while the session is counted in `client_num`. -/
def seat : SessionStage → Nat
  | .counted | .posted | .online | .leaving => 1
  | _ => 0

/-- One until the session is counted in `client_num`. -/
def reserved : SessionStage → Nat
  | .arriving | .entering => 1
  | _ => 0

end SessionStage

/-- The counters of `connect_state` that control the admission. -/
structure Counters where
  clientNum : Int
  lock : Nat
  lock2 : Nat

/-- The counters without `min_id`. -/
def ConnectionState.counters (state : ConnectionState) : Counters where
  clientNum := state.clientNum
  lock := state.lock
  lock2 := state.lock2

/-- What a statement of a session does with the counters. -/
inductive StageMove :
    Counters → SessionStage → Counters → SessionStage → Prop where
  | stay (counters : Counters) (stage : SessionStage) :
      StageMove counters stage counters stage
  | lockLogin {counters : Counters} (free : 0 < counters.lock2) :
      StageMove counters .arriving
        { counters with lock2 := counters.lock2 - 1 } .entering
  | countLogin (counters : Counters) :
      StageMove counters .entering
        { counters with clientNum := counters.clientNum + 1 } .counted
  | postLock (counters : Counters) :
      StageMove counters .counted
        { counters with lock := counters.lock + 1 } .posted
  | unlockLogin (counters : Counters) :
      StageMove counters .posted
        { counters with lock2 := counters.lock2 + 1 } .online
  | lockLogout {counters : Counters} (free : 0 < counters.lock2) :
      StageMove counters .online
        { counters with lock2 := counters.lock2 - 1 } .leaving
  | countLogout (counters : Counters) :
      StageMove counters .leaving
        { counters with clientNum := counters.clientNum - 1 } .uncounted
  | unlockLogout (counters : Counters) :
      StageMove counters .uncounted
        { counters with lock2 := counters.lock2 + 1 } .gone

@[simp] theorem PipeVars.stage_start
    (vars : PipeVars) :
    vars.start.stage = .online := by
  unfold PipeVars.start
  split <;> rfl

@[simp] theorem PipeVars.stage_created
    (vars : PipeVars) :
    vars.created.stage = .online := by
  unfold PipeVars.created
  split <;> rfl

@[simp] theorem PipeVars.stage_consumed
    (vars : PipeVars) :
    vars.consumed.stage = .online := by
  unfold PipeVars.consumed
  split <;> rfl

@[simp] theorem AfterBroadcast.stage_code
    (after : AfterBroadcast) :
    after.code.stage = after.stage := by
  cases after with
  | userPipes vars => exact vars.stage_start
  | _ => rfl

@[simp] theorem AfterSend.stage_signalled
    (after : AfterSend) :
    after.signalled.stage = after.stage := by
  cases after <;> rfl

@[simp] theorem AfterSend.stage_released
    (after : AfterSend) :
    after.released.stage = after.stage := by
  cases after with
  | openFifo path vars => exact vars.stage_created
  | _ => rfl

theorem broadcastStep_stage
    (common : Common)
    (proc : Process)
    (msg : String)
    (i : Nat)
    (after : AfterBroadcast) :
    (broadcastStep common proc msg i after).code.stage = after.stage := by
  unfold broadcastStep
  split
  · simp
  · split
    · split <;> rfl
    · rfl

theorem nameStep_stage
    (common : Common)
    (proc : Process)
    (name : String)
    (i : Nat) :
    (nameStep common proc name i).code.stage = .online := by
  unfold nameStep
  split
  · rfl
  · split <;> rfl

theorem announceIn_stage
    (common : Common)
    (proc : Process)
    (vars : PipeVars) :
    (announceIn common proc vars).code.stage = .online := by
  unfold announceIn
  dsimp only
  split
  · rfl
  · split
    · rfl
    · split <;> rfl

theorem announceOut_stage
    (common : Common)
    (proc : Process)
    (vars : PipeVars) :
    (announceOut common proc vars).code.stage = .online := by
  unfold announceOut
  dsimp only
  split
  · simp
  · split
    · simp
    · split
      · simp
      · rfl

theorem obey_stage
    {proc : Process}
    (atShell : proc.code = .shell)
    (common : Common)
    (line : Line) :
    (obey common proc line).code.stage = .online := by
  cases line with
  | tell tellId text =>
      simp only [obey]
      split
      · rw [Process.print_code, atShell]
        rfl
      · rfl
  | _ => rfl

/-- A sender changes no counter and stays in its stage. -/
theorem sendStep_stage
    {self : Nat}
    {common common' : Common}
    {proc proc' : Process}
    {target : Nat}
    {signal : Signal}
    {text : String}
    {after : AfterSend}
    {stage : SendStage}
    (steps :
      sendStep self common proc target signal text after stage =
        some (common', proc')) :
    common'.shared.connectState = common.shared.connectState ∧
      proc'.code.stage = after.stage := by
  cases stage with
  | wait =>
      simp only [sendStep] at steps
      split at steps
      · cases steps
        exact ⟨rfl, rfl⟩
      · cases steps
  | copy | mark =>
      simp only [sendStep] at steps
      cases steps
      exact ⟨rfl, rfl⟩
  | check =>
      simp only [sendStep] at steps
      split at steps
      all_goals
        cases steps
        exact ⟨rfl, rfl⟩
  | kill => cases steps
  | release =>
      simp only [sendStep] at steps
      cases steps
      exact ⟨rfl, after.stage_released⟩

/-- A statement that changes neither the counters nor the stage. -/
theorem StageMove.of_same
    {before after : ConnectionState}
    {stage next : SessionStage}
    (sameCounters : after.counters = before.counters)
    (sameStage : next = stage) :
    StageMove before.counters stage after.counters next := by
  rw [sameCounters, sameStage]
  exact .stay _ _

/-- Every statement outside the handlers is one of the moves. -/
theorem mainStep_stage
    {self : Nat}
    {canOpen : String → Bool}
    {common common' : Common}
    {proc proc' : Process}
    (steps : mainStep self canOpen common proc = some (common', proc')) :
    StageMove common.shared.connectState.counters proc.code.stage
      common'.shared.connectState.counters proc'.code.stage := by
  cases code : proc.code with
  | send target signal text stage after =>
      simp only [mainStep, code] at steps
      obtain ⟨sameState, sameStage⟩ := sendStep_stage steps
      exact .of_same (by rw [sameState]) sameStage
  | shell | exit =>
      simp [mainStep, code] at steps
  | lockLogin =>
      simp only [mainStep, code] at steps
      split at steps
      · rename_i free
        cases steps
        exact .lockLogin free
      · cases steps
  | countLogin =>
      simp only [mainStep, code] at steps
      cases steps
      exact .countLogin _
  | postLock =>
      simp only [mainStep, code] at steps
      cases steps
      exact .postLock _
  | unlockLogin =>
      simp only [mainStep, code] at steps
      cases steps
      exact .unlockLogin _
  | lockLogout =>
      simp only [mainStep, code] at steps
      split at steps
      · rename_i free
        cases steps
        exact .lockLogout free
      · cases steps
  | countLogout name =>
      simp only [mainStep, code] at steps
      cases steps
      exact .countLogout _
  | unlockLogout =>
      simp only [mainStep, code] at steps
      cases steps
      exact .unlockLogout _
  | takeId | storePid | storeState | storeName | scanMinId | printLoginMsg
  | nameStore name | countFifo vars | unlockFifo vars fileName | stop
  | clearState | clearRow | lowerMinId name =>
      simp only [mainStep, code] at steps
      cases steps
      exact .of_same rfl rfl
  | lockFifo vars =>
      simp only [mainStep, code] at steps
      split at steps
      · cases steps
        exact .of_same rfl rfl
      · cases steps
  | broadcast msg i after =>
      simp only [mainStep, code] at steps
      cases steps
      exact .of_same rfl (broadcastStep_stage common proc msg i after)
  | nameScan name i =>
      simp only [mainStep, code] at steps
      cases steps
      exact .of_same rfl (nameStep_stage common proc name i)
  | announceIn vars =>
      simp only [mainStep, code] at steps
      cases steps
      exact .of_same rfl (announceIn_stage common proc vars)
  | announceOut vars =>
      simp only [mainStep, code] at steps
      cases steps
      exact .of_same rfl (announceOut_stage common proc vars)
  | createPipe vars =>
      simp only [mainStep, code] at steps
      split at steps
      · cases steps
        exact .of_same rfl rfl
      · cases steps
        exact .of_same rfl vars.stage_created
  | openFifo path vars =>
      simp only [mainStep, code] at steps
      split at steps
      · cases steps
        exact .of_same rfl vars.stage_created
      · cases steps
  | consumePipe vars =>
      simp only [mainStep, code] at steps
      split at steps
      all_goals
        cases steps
        exact .of_same rfl vars.stage_consumed
  | clearColumn name i =>
      simp only [mainStep, code] at steps
      split at steps
      · cases steps
        exact .of_same rfl rfl
      · cases steps
        exact .of_same
          (by rw [Common.clearColumnEntry_connectState]) rfl

/-! ## The parent and the stages of its sessions -/

/-- The counters, the parent and the stage of each session. -/
structure Admission where
  counters : Counters
  parent : ParentCode
  forked : Finset Nat
  stage : Nat → SessionStage

/-- What the machine looks like to the admission. -/
def Machine.admission (machine : Machine) : Admission where
  counters := machine.common.shared.connectState.counters
  parent := machine.parent
  forked := machine.forked
  stage := fun pid => (machine.procs pid).code.stage

namespace Admission

/-- The moves of the parent and of the sessions. -/
inductive Moves (before : Admission) : Admission → Prop where
  | fork
      {pid : Nat}
      (accepts : before.parent = .accept)
      (fresh : pid ∉ before.forked) :
      Moves before
        { before with
          parent := .waitLock
          forked := insert pid before.forked
          stage := Function.update before.stage pid .arriving }
  | waitLock
      (waits : before.parent = .waitLock)
      (posted : 0 < before.counters.lock) :
      Moves before
        { before with
          counters := { before.counters with lock := before.counters.lock - 1 }
          parent := .waitRoom }
  | waitRoom
      (waits : before.parent = .waitRoom)
      (room : before.counters.clientNum < maxClientNum) :
      Moves before { before with parent := .accept }
  | session
      {pid : Nat}
      (member : pid ∈ before.forked)
      {counters : Counters}
      {stage : SessionStage}
      (moves :
        StageMove before.counters (before.stage pid) counters stage) :
      Moves before
        { before with
          counters := counters
          stage := Function.update before.stage pid stage }

end Admission

namespace Machine

variable {machine next : Machine}

/-- The stages after a change of one process. -/
theorem stage_update
    (procs : Nat → Process)
    (pid : Nat)
    (proc : Process) :
    (fun other => (Function.update procs pid proc other).code.stage) =
      Function.update (fun other => (procs other).code.stage) pid
        proc.code.stage := by
  funext other
  exact Function.apply_update (fun _ proc => proc.code.stage) procs pid proc
    other

/-- A step of one session that is one of its moves. -/
theorem admission_session
    {pid : Nat}
    (member : pid ∈ machine.forked)
    {common : Common}
    {proc : Process}
    (moves :
      StageMove machine.common.shared.connectState.counters
        (machine.procs pid).code.stage common.shared.connectState.counters
        proc.code.stage) :
    machine.admission.Moves (machine.setBoth pid (common, proc)).admission := by
  have isSession :
      (machine.setBoth pid (common, proc)).admission =
        { machine.admission with
          counters := common.shared.connectState.counters
          stage :=
            Function.update machine.admission.stage pid proc.code.stage } := by
    simp only [admission, setBoth, setProc, stage_update]
  rw [isSession]
  exact .session member moves

/-- A signal does not touch the code of its receiver. -/
theorem admission_receive
    (machine : Machine)
    (receiver : Nat)
    (letter : Letter) :
    (machine.setProc receiver
        ((machine.procs receiver).receive letter)).admission =
      machine.admission := by
  have sameCode :
      ((machine.procs receiver).receive letter).code =
        (machine.procs receiver).code := by
    unfold Process.receive
    split <;> rfl
  simp only [admission, setProc, stage_update, sameCode]
  rw [Function.update_eq_self]

/-- Every step of the machine is a move of the admission. -/
theorem Steps.admission
    {action : Action}
    (steps : machine.Steps action next) :
    machine.admission.Moves next.admission := by
  have same {pid : Nat} (member : pid ∈ machine.forked) {proc : Process}
      (sameStage : proc.code.stage = (machine.procs pid).code.stage) :
      machine.admission.Moves (machine.setProc pid proc).admission :=
    admission_session member (.of_same rfl sameStage)
  cases action with
  | fork pid peer =>
      simp only [Steps, step] at steps
      split at steps
      · rename_i guard
        cases steps
        have isFork :
            { machine.setProc pid (.forked peer) with
                parent := .waitLock
                forked := insert pid machine.forked }.admission =
              { machine.admission with
                parent := .waitLock
                forked := insert pid machine.forked
                stage :=
                  Function.update machine.admission.stage pid .arriving } := by
          simp only [admission, setProc, stage_update]
          rfl
        rw [isFork]
        exact .fork guard.1 guard.2.1
      · cases steps
  | waitLock =>
      simp only [Steps, step] at steps
      split at steps
      · rename_i guard
        cases steps
        exact .waitLock guard.1 guard.2
      · cases steps
  | waitRoom =>
      simp only [Steps, step] at steps
      split at steps
      · rename_i guard
        cases steps
        exact .waitRoom guard.1 guard.2
      · cases steps
  | main pid =>
      obtain ⟨member, _, _, common', proc', stepped, rfl⟩ := steps_main steps
      exact admission_session member (mainStep_stage stepped)
  | line pid line =>
      obtain ⟨member, _, atShell, rfl⟩ := steps_line steps
      apply same member
      rw [obey_stage atShell, atShell]
      rfl
  | kill pid =>
      obtain ⟨member, _, _, target, signal, text, after, code, rfl⟩ :=
        steps_kill steps
      unfold kill
      dsimp only
      rw [admission_receive]
      apply same member
      rw [Process.goto_code, after.stage_signalled, code]
      rfl
  | exit pid =>
      obtain ⟨member, _, _, _, rfl⟩ := steps_exit steps
      exact same member rfl
  | deliver pid signal =>
      obtain ⟨member, _, _, rfl⟩ := steps_deliver steps
      exact same member rfl
  | handle pid fd =>
      obtain ⟨member, _, common', proc', stepped, rfl⟩ := steps_handle steps
      apply admission_session member
      exact .of_same
        (by rw [handlerStep_connectState stepped])
        (by rw [(handlerStep_sameMain stepped).code])

end Machine

/-! ## Mutex, ticket and seats -/

/-- What the moves of a session pass around. -/
theorem StageMove.balance
    {counters next : Counters}
    {stage after : SessionStage}
    (moves : StageMove counters stage next after) :
    next.lock2 + after.mutex = counters.lock2 + stage.mutex ∧
      next.lock + after.ticket = counters.lock + stage.ticket ∧
      next.clientNum + stage.seat = counters.clientNum + after.seat ∧
      after.seat + after.reserved ≤ stage.seat + stage.reserved := by
  cases moves with
  | stay => exact ⟨rfl, rfl, rfl, le_rfl⟩
  | lockLogin free | lockLogout free =>
      refine ⟨?_, rfl, rfl, le_rfl⟩
      exact Nat.sub_add_cancel free
  | countLogin | countLogout =>
      refine ⟨rfl, rfl, ?_, by decide⟩
      simp [SessionStage.seat]
  | postLock | unlockLogin | unlockLogout =>
      exact ⟨rfl, rfl, rfl, le_rfl⟩

namespace Admission

variable {before after : Admission}

/-- One while the parent may fork or waits for room. -/
def parentTicket : ParentCode → Nat
  | .accept | .waitRoom => 1
  | .waitLock => 0

/-- One while the parent may fork. -/
def parentSeat : ParentCode → Nat
  | .accept => 1
  | .waitLock | .waitRoom => 0

/-- There is one mutex and one ticket, and a seat for whoever may take one. -/
structure Balanced (admission : Admission) : Prop where
  mutex :
    Custody.total SessionStage.mutex admission.counters.lock2
      admission.forked admission.stage = 1
  ticket :
    Custody.total SessionStage.ticket
      (admission.counters.lock + parentTicket admission.parent)
      admission.forked admission.stage = 1
  counted :
    admission.counters.clientNum =
      Custody.total SessionStage.seat 0 admission.forked admission.stage
  room :
    Custody.total (fun stage => stage.seat + stage.reserved)
      (parentSeat admission.parent) admission.forked admission.stage ≤
        maxClientNum

/-- A move of one session keeps the balance. -/
theorem Balanced.session
    (balanced : before.Balanced)
    {pid : Nat}
    (member : pid ∈ before.forked)
    {counters : Counters}
    {stage : SessionStage}
    (moves : StageMove before.counters (before.stage pid) counters stage) :
    Balanced
      { before with
        counters := counters
        stage := Function.update before.stage pid stage } := by
  have change (held : SessionStage → Nat) (stored stored' : Nat) :
      Custody.total held stored' before.forked
            (Function.update before.stage pid stage) +
          (stored + held (before.stage pid)) =
        Custody.total held stored before.forked before.stage +
          (stored' + held stage) :=
    Custody.total_update member stored' stage
  obtain ⟨mutex, ticket, counted, room⟩ := balanced
  obtain ⟨sameMutex, sameTicket, sameSeats, fewer⟩ := moves.balance
  refine ⟨?_, ?_, ?_, ?_⟩
  · have := change SessionStage.mutex before.counters.lock2 counters.lock2
    dsimp only
    omega
  · have := change SessionStage.ticket
      (before.counters.lock + parentTicket before.parent)
      (counters.lock + parentTicket before.parent)
    dsimp only
    omega
  · have := change SessionStage.seat 0 0
    dsimp only
    omega
  · have := change (fun stage => stage.seat + stage.reserved)
      (parentSeat before.parent) (parentSeat before.parent)
    dsimp only at this ⊢
    omega

/-- While the parent has the ticket, every session is past its increment. -/
theorem Balanced.no_reserved
    (balanced : before.Balanced)
    (holds : parentTicket before.parent = 1)
    {pid : Nat}
    (member : pid ∈ before.forked) :
    (before.stage pid).reserved = 0 := by
  have ticket := balanced.ticket
  have nobody : Custody.total SessionStage.ticket 0 before.forked before.stage = 0 := by
    unfold Custody.total at ticket ⊢
    omega
  have none := Custody.nobody member nobody
  revert none
  cases before.stage pid <;> simp [SessionStage.ticket, SessionStage.reserved]

/-- Every move keeps the balance. -/
theorem Balanced.moves
    (balanced : before.Balanced)
    (moves : before.Moves after) :
    after.Balanced := by
  cases moves with
  | @fork pid accepts fresh =>
      have joins (held : SessionStage → Nat) (stored : Nat) :
          Custody.total held stored (insert pid before.forked)
              (Function.update before.stage pid .arriving) =
            Custody.total held stored before.forked before.stage +
              held .arriving :=
        Custody.total_insert_held fresh SessionStage.arriving
      obtain ⟨mutex, ticket, counted, room⟩ := balanced
      rw [accepts] at ticket room
      refine ⟨?_, ?_, ?_, ?_⟩
      · dsimp only
        rw [joins]
        exact mutex
      · dsimp only
        rw [joins]
        unfold Custody.total at ticket ⊢
        dsimp only [parentTicket, SessionStage.ticket] at ticket ⊢
        omega
      · dsimp only
        rw [joins]
        exact counted
      · dsimp only
        rw [joins]
        unfold Custody.total at room ⊢
        dsimp only [parentSeat, SessionStage.seat, SessionStage.reserved]
          at room ⊢
        omega
  | waitLock waits posted =>
      obtain ⟨mutex, ticket, counted, room⟩ := balanced
      rw [waits] at ticket room
      refine ⟨mutex, ?_, counted, room⟩
      unfold Custody.total parentTicket at ticket ⊢
      dsimp only at ticket ⊢
      omega
  | waitRoom waits hasRoom =>
      have noReserved {pid : Nat} (member : pid ∈ before.forked) :=
        balanced.no_reserved (by rw [waits]; rfl) member
      obtain ⟨mutex, ticket, counted, room⟩ := balanced
      rw [waits] at ticket
      refine ⟨mutex, ticket, counted, ?_⟩
      have onlySeats :
          ∑ pid ∈ before.forked,
              ((before.stage pid).seat + (before.stage pid).reserved) =
            ∑ pid ∈ before.forked, (before.stage pid).seat := by
        refine Finset.sum_congr rfl fun pid member => ?_
        rw [noReserved member, Nat.add_zero]
      unfold Custody.total at counted ⊢
      dsimp only [parentSeat]
      rw [onlySeats]
      omega
  | session member moves => exact balanced.session member moves

end Admission

/-! ## Admission in every reachable state -/

namespace Machine

/-- No session is between its `sem_wait` and `sem_post` of `lock2`. -/
def OutsideLock2 (machine : Machine) : Prop :=
  ∀ pid ∈ machine.forked, (machine.procs pid).code.stage.inLock2 = false

/-- The sessions that have not completed their login section. -/
def loggingIn (machine : Machine) : Finset Nat :=
  machine.forked.filter fun pid =>
    (machine.procs pid).code.stage.loggingIn = true

/-- The sessions that have completed their login and not their logout. -/
def connected (machine : Machine) : Finset Nat :=
  machine.forked.filter fun pid =>
    (machine.procs pid).code.stage.loggingIn = false ∧
      (machine.procs pid).code.stage.loggedOut = false

/--
`client_num` is the number of connected sessions and within its bounds, and at
most one session is logging in.
-/
structure AdmissionControlled (machine : Machine) : Prop where
  counts :
    machine.common.shared.connectState.clientNum = machine.connected.card
  nonnegative : 0 ≤ machine.common.shared.connectState.clientNum
  bounded : machine.common.shared.connectState.clientNum ≤ maxClientNum
  oneLogin : machine.loggingIn.card ≤ 1

theorem admission_initial (serverPid : Nat) :
    (initial serverPid).admission.Balanced := by
  refine ⟨rfl, rfl, rfl, ?_⟩
  change 1 ≤ maxClientNum
  decide

/-- What the balance says about a state outside the sections of `lock2`. -/
theorem admissionControlled_of_balanced
    {machine : Machine}
    (balanced : machine.admission.Balanced)
    (outside : machine.OutsideLock2) :
    machine.AdmissionControlled := by
  obtain ⟨mutex, ticket, counted, room⟩ := balanced
  have seats :
      ∑ pid ∈ machine.forked, (machine.procs pid).code.stage.seat =
        machine.connected.card := by
    rw [connected, Finset.card_filter]
    refine Finset.sum_congr rfl fun pid member => ?_
    have notInside := outside pid member
    revert notInside
    cases (machine.procs pid).code.stage <;>
      simp [SessionStage.seat, SessionStage.inLock2, SessionStage.loggingIn,
        SessionStage.loggedOut]
  have tickets :
      ∑ pid ∈ machine.forked, (machine.procs pid).code.stage.ticket =
        machine.loggingIn.card := by
    rw [loggingIn, Finset.card_filter]
    refine Finset.sum_congr rfl fun pid member => ?_
    have notInside := outside pid member
    revert notInside
    cases (machine.procs pid).code.stage <;>
      simp [SessionStage.ticket, SessionStage.inLock2, SessionStage.loggingIn]
  have atMostRoom :
      ∑ pid ∈ machine.forked, (machine.procs pid).code.stage.seat ≤
        maxClientNum := by
    refine Nat.le_trans ?_ room
    refine Nat.le_trans (Finset.sum_le_sum fun pid _ => ?_) (Nat.le_add_left _ _)
    exact Nat.le_add_right _ _
  have isCount :
      machine.common.shared.connectState.clientNum = machine.connected.card := by
    rw [← seats, ← Nat.zero_add (Finset.sum _ _)]
    exact counted
  refine ⟨isCount, by omega, by omega, ?_⟩
  rw [Custody.total] at ticket
  change _ + ∑ pid ∈ machine.forked, (machine.procs pid).code.stage.ticket = 1
    at ticket
  omega

/--
In every state of every run outside the sections of `lock2`, `client_num` counts
the connected sessions, is between 0 and 30, and at most one session that was
forked has not completed its login.
-/
theorem admission_controlled
    (serverPid : Nat)
    {path : List (Action × Machine)}
    (isPath : Path Steps (initial serverPid) path) :
    EveryState (fun machine => machine.OutsideLock2 → machine.AdmissionControlled)
      (initial serverPid) path := by
  have balanced :
      EveryState (fun machine => machine.admission.Balanced)
        (initial serverPid) path := by
    refine Path.everyState ?_ (admission_initial serverPid) isPath
    intro machine action next balanced steps
    exact balanced.moves steps.admission
  refine balanced.mono ?_
  intro machine balanced outside
  exact admissionControlled_of_balanced balanced outside

/-- A client logs in, another one is accepted, and the first one leaves. -/
def arrivalActions : List Action :=
  [Action.fork 10 "a"] ++ List.replicate 41 (Action.main 10) ++
    [Action.waitLock, .waitRoom, .fork 11 "b", .line 10 .exit] ++
    List.replicate 69 (Action.main 10)

/-- The first client has left, the second one is logging in. -/
theorem admission_controlled_arrival :
    let final := lastState (initial 5) (actionPath 5 arrivalActions)
    final.OutsideLock2 ∧ final.loggingIn = {11} ∧ final.AdmissionControlled := by
  have outside :
      (lastState (initial 5)
        (actionPath 5 arrivalActions)).OutsideLock2 := by
    unfold OutsideLock2
    decide +kernel
  exact ⟨outside, by decide +kernel,
    (admission_controlled 5 (path_actionPath (by decide +kernel))).last outside⟩

end Machine

end NpServers.MultiProc
