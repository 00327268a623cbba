import NpServers.SessionWiring
import NpServers.Custody

namespace NpServers.MultiProc

open Shell TransitionPath

/-!
# The token of a mailbox

The lock of a mailbox is taken by a sender and given back by the handler of the
receiver.  Between the two the right to the mailbox travels with the signal.
The token of an id is the value of its lock, plus the senders that hold it,
plus the signals that a living process of that id has still to answer.

A token is never made.  It is lost by a signal to a process that has exited and
by a process that exits with a signal pending, and by nothing else.
-/

/-! ## Tokens -/

namespace Process

/-- One when the process is a sender that holds the lock of this id. -/
def holds
    (proc : Process)
    (i : Nat) : Nat :=
  if proc.code.held = some i then 1 else 0

/-- The signals a living process of this id has still to answer. -/
def owes
    (proc : Process)
    (i : Nat) : Nat :=
  if proc.running = true ∧ proc.id = i then
    (proc.pending .usr1).toNat + (proc.pending .usr2).toNat +
      proc.frames.length
  else
    0

/-- What the process has of the token of an id. -/
def share
    (i : Nat)
    (proc : Process) : Nat :=
  proc.holds i + proc.owes i

end Process

namespace Machine

/--
The lock of an id, the senders that hold it, and the signals sent under it that
a living process has still to answer.
-/
def tokens
    (machine : Machine)
    (i : Nat) : Nat :=
  (machine.common.client i).lock +
    ∑ pid ∈ machine.forked, (machine.procs pid).holds i +
    ∑ pid ∈ machine.forked, (machine.procs pid).owes i

theorem tokens_eq_total
    (machine : Machine)
    (i : Nat) :
    machine.tokens i =
      Custody.total (Process.share i) (machine.common.client i).lock
        machine.forked machine.procs := by
  simp [tokens, Custody.total, Process.share, Finset.sum_add_distrib,
    Nat.add_assoc]

/-- The token after a change of one process and of what it shares. -/
theorem tokens_setBoth
    {machine : Machine}
    {pid : Nat}
    (member : pid ∈ machine.forked)
    (common' : Common)
    (proc' : Process)
    (i : Nat) :
    (machine.setBoth pid (common', proc')).tokens i +
        ((machine.common.client i).lock + (machine.procs pid).share i) =
      machine.tokens i + ((common'.client i).lock + proc'.share i) := by
  rw [tokens_eq_total, tokens_eq_total]
  exact Custody.total_update member _ _

/-- The token after a change of one process. -/
theorem tokens_setProc
    {machine : Machine}
    {pid : Nat}
    (member : pid ∈ machine.forked)
    (proc' : Process)
    (i : Nat) :
    (machine.setProc pid proc').tokens i + (machine.procs pid).share i =
      machine.tokens i + proc'.share i := by
  have both := tokens_setBoth member machine.common proc' i
  change (machine.setProc pid proc').tokens i + _ = _ at both
  omega

end Machine

/-! ## The token in single statements -/

theorem Process.owes_congr
    {proc proc' : Process}
    (signals : SameSignals proc proc')
    (id : proc'.id = proc.id)
    (i : Nat) :
    proc'.owes i = proc.owes i := by
  simp only [Process.owes, signals.running, signals.pending, signals.frames, id]

theorem Process.owes_of_unsignalled
    {proc : Process}
    (unsignalled : proc.Unsignalled)
    (i : Nat) :
    proc.owes i = 0 := by
  simp [Process.owes, unsignalled.1, unsignalled.2]

theorem Process.unsignalled_of_owes
    {proc : Process}
    (running : proc.running = true)
    (nothing : proc.owes proc.id = 0) :
    proc.Unsignalled := by
  simp only [Process.owes, running, and_self, if_true, Nat.add_eq_zero_iff,
    Bool.toNat_eq_zero, List.length_eq_zero_iff] at nothing
  obtain ⟨⟨first, second⟩, frames⟩ := nothing
  refine ⟨frames, fun signal => ?_⟩
  cases signal with
  | usr1 => exact first
  | usr2 => exact second

/-- A process that goes on elsewhere owes what it owed. -/
@[simp] theorem Process.owes_goto
    (proc : Process)
    (code : Code)
    (i : Nat) :
    (proc.goto code).owes i = proc.owes i :=
  rfl

/-- A sender that goes on at the same mailbox with the lock in its hands. -/
theorem share_goto
    {proc : Process}
    {code : Code}
    (held : code.held = proc.code.held)
    (i : Nat) :
    (proc.goto code).share i = proc.share i := by
  simp [Process.share, Process.holds, held]

/-- The statements of a sender pass the token between the lock and the sender. -/
theorem sendStep_share
    {self : Nat}
    {common common' : Common}
    {proc proc' : Process}
    {target : Nat}
    {signal : Signal}
    {text : String}
    {after : AfterSend}
    {stage : SendStage}
    (code : proc.code = .send target signal text stage after)
    (steps :
      sendStep self common proc target signal text after stage =
        some (common', proc'))
    (i : Nat) :
    (common'.client i).lock + proc'.share i =
      (common.client i).lock + proc.share i := by
  cases stage with
  | wait =>
      simp only [sendStep] at steps
      split at steps
      case isFalse => cases steps
      case isTrue free =>
        cases steps
        have holdsBefore : proc.holds i = 0 := by
          simp [Process.holds, code, Code.held]
        by_cases here : i = target
        · subst here
          have holdsAfter :
              (proc.goto (.send i signal text .copy after)).holds i = 1 := by
            simp [Process.holds, Code.held]
          have lockAfter :
              ((common.acquire i ⟨self, proc.id, signal, text⟩).client i).lock =
                (common.client i).lock - 1 := by
            rw [Common.client_acquire, Common.client_setClient_self]
          simp only [Process.share, holdsAfter, holdsBefore, Process.owes_goto,
            lockAfter]
          omega
        · have holdsAfter :
              (proc.goto (.send target signal text .copy after)).holds i =
                0 := by
            simp [Process.holds, Code.held, Ne.symm here]
          have lockAfter :
              ((common.acquire target
                ⟨self, proc.id, signal, text⟩).client i).lock =
                (common.client i).lock := by
            rw [Common.client_acquire, Common.client_setClient_of_ne here]
          simp only [Process.share, holdsAfter, holdsBefore, Process.owes_goto,
            lockAfter]
  | copy =>
      simp only [sendStep] at steps
      cases steps
      rw [share_goto, Common.setClient_keeps ClientInfor.lock]
      · intro client
        rfl
      · rw [code]
        cases signal <;> rfl
  | mark =>
      simp only [sendStep] at steps
      cases steps
      rw [share_goto, Common.setClient_keeps ClientInfor.lock]
      · intro client
        rfl
      · rw [code]
        rfl
  | check =>
      simp only [sendStep] at steps
      split at steps
      all_goals
        cases steps
        rw [share_goto]
        rw [code]
        rfl
  | kill => cases steps
  | release =>
      simp only [sendStep] at steps
      cases steps
      have holdsAfter : (proc.goto after.released).holds i = 0 := by
        simp [Process.holds]
      by_cases here : i = target
      · subst here
        have holdsBefore : proc.holds i = 1 := by
          simp [Process.holds, code, Code.held]
        simp only [Process.share, holdsAfter, holdsBefore, Process.owes_goto,
          Common.post, Common.client_setClient_self]
        omega
      · have holdsBefore : proc.holds i = 0 := by
          simp [Process.holds, code, Code.held, Ne.symm here]
        simp only [Process.share, holdsAfter, holdsBefore, Process.owes_goto,
          Common.post, Common.client_setClient_of_ne here]

/-- Outside the handlers a statement keeps the token. -/
theorem mainStep_share
    {self : Nat}
    {canOpen : String → Bool}
    {common common' : Common}
    {proc proc' : Process}
    (unsignalled : proc.code.unnamed = true → proc.Unsignalled)
    (steps : mainStep self canOpen common proc = some (common', proc'))
    (i : Nat) :
    (common'.client i).lock + proc'.share i =
      (common.client i).lock + proc.share i := by
  rcases mainStep_cases steps with quiet | ⟨_, _, _, _, _, code, sends⟩
  · have sameLock : (common'.client i).lock = (common.client i).lock :=
      congrArg Prod.fst (quiet.mail i)
    have sameOwes : proc'.owes i = proc.owes i := by
      rcases mainStep_names steps with ⟨code, _, rfl⟩ | ⟨_, _, rfl⟩ | names
      · -- the process owes nothing when it takes its id
        have before : proc.Unsignalled := unsignalled (by rw [code]; rfl)
        have after : Process.Unsignalled
            ({ proc with id := common.shared.connectState.minId }.goto
              .countLogin) :=
          before
        rw [Process.owes_of_unsignalled before,
          Process.owes_of_unsignalled after]
      · rfl
      · exact Process.owes_congr quiet.signals names.id i
    simp [Process.share, Process.holds, quiet.heldBefore, quiet.heldAfter,
      sameLock, sameOwes]
  · exact sendStep_share code sends i

/-- A running handler keeps the token until it gives it back. -/
theorem handlerStep_share
    {canOpen : String → Bool}
    {fd : Nat}
    {common common' : Common}
    {proc proc' : Process}
    (running : proc.running = true)
    (steps : handlerStep canOpen fd common proc = some (common', proc'))
    (i : Nat) :
    (common'.client i).lock + proc'.share i =
      (common.client i).lock + proc.share i := by
  unfold handlerStep at steps
  split at steps
  case h_1 => cases steps
  case h_7 below frames =>
    cases steps
    simp only [Process.share, Process.holds, Process.owes, running, frames,
      true_and, List.length_cons]
    by_cases here : proc.id = i
    · subst here
      simp [Common.post]
      omega
    · simp [here, Common.post, Common.client_setClient_of_ne (Ne.symm here)]
  case h_6 frames =>
    cases steps
    rw [Common.setClient_keeps ClientInfor.lock (by intro client; rfl)]
    simp [Process.share, Process.holds, Process.owes, frames]
  case h_2 frames | h_3 frames =>
    split at steps
    all_goals
      cases steps
      simp [Process.share, Process.holds, Process.owes, frames]
  case h_4 frames | h_5 frames =>
    split at steps
    · cases steps
      simp [Process.share, Process.holds, Process.owes, frames, Common.openEnd,
        Common.client]
    · cases steps

/-! ## The token in steps of the machine -/

/--
The signal of this step, if it sends one, reaches a living process, and the
process that exits, if one does, has no signal pending.
-/
def Machine.delivers
    (machine : Machine) :
    Action → Bool
  | .kill pid =>
      match (machine.procs pid).code with
      | .send target _ _ _ _ =>
          decide (target ∉ clientIds) ||
            (machine.procs (machine.common.client target).pid).running
      | _ => true
  | .exit pid =>
      !(machine.procs pid).pending .usr1 && !(machine.procs pid).pending .usr2
  | _ => true

namespace Machine

variable {machine next : Machine}
variable {pid : Nat}

/-- The token of an id with at most one is not at two places. -/
theorem share_other
    {i : Nat}
    (member : pid ∈ machine.forked)
    (holds : 0 < (machine.procs pid).share i)
    (atMostOne : machine.tokens i ≤ 1) :
    (machine.common.client i).lock = 0 ∧ (machine.procs pid).share i = 1 ∧
      ∀ other ∈ machine.forked, other ≠ pid →
        (machine.procs other).share i = 0 := by
  rw [tokens_eq_total] at atMostOne
  exact Custody.alone member holds atMostOne

/-- All steps but signals and exits keep every token. -/
theorem tokens_kept
    {action : Action}
    (wired : Wired machine)
    (steps : machine.Steps action next)
    (notKill : ∀ pid, action ≠ .kill pid)
    (notExit : ∀ pid, action ≠ .exit pid)
    (i : Nat) :
    next.tokens i = machine.tokens i := by
  cases action with
  | fork pid peer =>
      obtain ⟨fresh, _, _, common, forked, procs⟩ := steps_fork steps
      rw [tokens_eq_total, tokens_eq_total, common, forked, procs]
      refine Custody.total_insert fresh ?_
      simp [Process.share, Process.holds, Process.owes, Process.forked,
        Code.held]
  | waitLock =>
      obtain ⟨clients, _, _, forked, procs⟩ := steps_waitLock steps
      rw [tokens, tokens, clients, forked, procs]
  | waitRoom =>
      obtain ⟨common, forked, procs⟩ := steps_waitRoom steps
      rw [tokens, tokens, common, forked, procs]
  | main pid =>
      obtain ⟨member, _, _, common', proc', stepped, rfl⟩ := steps_main steps
      have both := tokens_setBoth member common' proc' i
      have share := mainStep_share (wired.unsignalled pid member) stepped i
      omega
  | line pid line =>
      obtain ⟨member, _, atShell, rfl⟩ := steps_line steps
      have held : (machine.procs pid).code.held = none := by
        rw [atShell]
        rfl
      have quiet := obey_quiet held machine.common line
      have sameId := (obey_names atShell machine.common line).1
      have one := tokens_setProc member
        (obey machine.common (machine.procs pid) line) i
      have share :
          (obey machine.common (machine.procs pid) line).share i =
            (machine.procs pid).share i := by
        simp [Process.share, Process.holds, quiet.heldBefore, quiet.heldAfter,
          Process.owes_congr quiet.signals sameId]
      omega
  | kill pid => exact (notKill pid rfl).elim
  | exit pid => exact (notExit pid rfl).elim
  | deliver pid signal =>
      obtain ⟨member, running, pending, rfl⟩ := steps_deliver steps
      have one := tokens_setProc member
        ((machine.procs pid).interrupt signal) i
      have share :
          ((machine.procs pid).interrupt signal).share i =
            (machine.procs pid).share i := by
        -- the pending flag becomes a frame
        cases signal with
        | usr1 | usr2 =>
            simp [Process.share, Process.holds, Process.owes,
              Process.interrupt, running, pending]
            split <;> omega
      omega
  | handle pid fd =>
      obtain ⟨member, running, common', proc', stepped, rfl⟩ :=
        steps_handle steps
      have both := tokens_setBoth member common' proc' i
      have share := handlerStep_share running stepped i
      omega

/-- A signal to a living process adds to what it owes, unless it is pending. -/
theorem share_receive
    {proc : Process}
    (running : proc.running = true)
    (letter : Letter)
    (i : Nat) :
    (proc.receive letter).share i =
      proc.share i +
        if proc.id = i ∧ proc.pending letter.signal = false then 1 else 0 := by
  obtain ⟨sender, fromId, signal, text⟩ := letter
  by_cases here : proc.id = i
  · cases signal with
    | usr1 =>
        cases already : proc.pending .usr1 <;>
          simp [Process.share, Process.holds, Process.owes, Process.receive,
            running, here, already]
        omega
    | usr2 =>
        cases already : proc.pending .usr2 <;>
          simp [Process.share, Process.holds, Process.owes, Process.receive,
            running, here, already]
        omega
  · simp [Process.share, Process.holds, Process.owes, Process.receive, running,
      here]

/-- The tokens when the sender is past its signal, before the signal arrives. -/
theorem tokens_sent
    {target : Nat}
    {signal : Signal}
    {text : String}
    {after : AfterSend}
    (member : pid ∈ machine.forked)
    (code : (machine.procs pid).code = .send target signal text .kill after)
    (i : Nat) :
    (machine.setProc pid
        ((machine.procs pid).goto after.signalled)).tokens i +
        (if target = i then 1 else 0) =
      machine.tokens i := by
  have one := tokens_setProc member
    ((machine.procs pid).goto after.signalled) i
  have holdsBefore :
      (machine.procs pid).holds i = if target = i then 1 else 0 := by
    simp [Process.holds, code, Code.held]
  have holdsAfter :
      ((machine.procs pid).goto after.signalled).holds i = 0 := by
    simp [Process.holds]
  simp only [Process.share, holdsBefore, holdsAfter, Process.owes_goto] at one
  omega

/-- A signal through an entry adds to the token of that id, or is lost. -/
theorem tokens_receive
    (wired : Wired machine)
    (target : Nat)
    (letter : Letter)
    (i : Nat) :
    (machine.setProc (machine.common.client target).pid
        ((machine.procs
          (machine.common.client target).pid).receive letter)).tokens i =
      machine.tokens i +
        if target = i ∧
            (machine.procs
              (machine.common.client target).pid).running = true ∧
            (machine.procs
              (machine.common.client target).pid).pending letter.signal = false
        then 1 else 0 := by
  cases running :
      (machine.procs (machine.common.client target).pid).running with
  | false =>
      simp only [Process.receive, running, Bool.false_eq_true, ↓reduceIte,
        false_and, and_false, Nat.add_zero]
      rw [setProc, Function.update_eq_self]
  | true =>
      have isClient : target ∈ clientIds := by
        by_contra outside
        have exited := wired.not_running_outside outside
        rw [running] at exited
        cases exited
      have arrived := tokens_setProc (wired.alive _ running)
        ((machine.procs
          (machine.common.client target).pid).receive letter) i
      rw [share_receive running, wired.id_of_running isClient running]
        at arrived
      simp only [true_and]
      omega

/-- Where the signal of a sender goes, with the token it carries. -/
theorem tokens_kill
    (wired : Wired machine)
    (steps : machine.Steps (.kill pid) next) :
    ∃ target signal text after,
      (machine.procs pid).code = .send target signal text .kill after ∧
        pid ∈ machine.forked ∧
        ∀ i,
          next.tokens i + (if target = i then 1 else 0) =
            machine.tokens i +
              if target = i ∧
                  (machine.procs
                    (machine.common.client target).pid).running = true ∧
                  (machine.procs
                    (machine.common.client target).pid).pending signal = false
              then 1 else 0 := by
  obtain ⟨member, running, _, target, signal, text, after, code, rfl⟩ :=
    steps_kill steps
  refine ⟨target, signal, text, after, code, member, ?_⟩
  intro i
  have sent := tokens_sent member code i
  have sentWired := wired.sent member running code
  have arrived := tokens_receive sentWired target
    ⟨pid, (machine.procs pid).id, signal, text⟩ i
  -- going on to its next statement changes no flag of the sender
  have sameFlags :
      ∀ q,
        ((machine.setProc pid
          ((machine.procs pid).goto after.signalled)).procs q).running =
            (machine.procs q).running ∧
        ((machine.setProc pid
          ((machine.procs pid).goto after.signalled)).procs q).pending =
            (machine.procs q).pending := by
    intro q
    by_cases here : q = pid
    · subst here
      simp [setProc, Process.goto]
    · simp [setProc, Function.update_of_ne here]
  rw [(sameFlags _).1, (sameFlags _).2] at arrived
  change (machine.kill pid target signal text after).tokens i =
    (machine.setProc pid
      ((machine.procs pid).goto after.signalled)).tokens i +
      if target = i ∧
          (machine.procs (machine.common.client target).pid).running = true ∧
          (machine.procs
            (machine.common.client target).pid).pending signal = false
      then 1 else 0 at arrived
  omega

/-- A process that exits takes what it owes with it. -/
theorem tokens_exit
    (steps : machine.Steps (.exit pid) next)
    (i : Nat) :
    next.tokens i + (machine.procs pid).owes i = machine.tokens i := by
  obtain ⟨member, _, _, _, rfl⟩ := steps_exit steps
  have one := tokens_setProc member
    { machine.procs pid with running := false } i
  have share :
      Process.share i { machine.procs pid with running := false } =
        (machine.procs pid).holds i := by
    simp [Process.share, Process.holds, Process.owes]
  rw [share, Process.share] at one
  omega

/-- Tokens are never made. -/
theorem tokens_step_le
    {action : Action}
    (wired : Wired machine)
    (steps : machine.Steps action next)
    (i : Nat) :
    next.tokens i ≤ machine.tokens i := by
  cases action with
  | kill pid =>
      obtain ⟨target, signal, _, _, _, _, tokens⟩ := tokens_kill wired steps
      have atId := tokens i
      split at atId <;> split at atId <;> omega
  | exit pid =>
      have atId := tokens_exit steps i
      omega
  | _ => exact (tokens_kept wired steps (by simp) (by simp) i).le

/-- A signal that reaches a living process carries the token over. -/
theorem tokens_kill_delivered
    (wired : Wired machine)
    (atMostOne : ∀ i, i ∈ clientIds → machine.tokens i ≤ 1)
    (steps : machine.Steps (.kill pid) next)
    (reaches : machine.delivers (.kill pid) = true)
    {i : Nat}
    (isClient : i ∈ clientIds) :
    next.tokens i = machine.tokens i := by
  obtain ⟨target, signal, text, after, code, member, tokens⟩ :=
    tokens_kill wired steps
  have atId := tokens i
  by_cases here : target = i
  · subst here
    have running :
        (machine.procs (machine.common.client target).pid).running = true := by
      simpa [delivers, code, isClient] using reaches
    have holds : 0 < (machine.procs pid).share target := by
      simp [Process.share, Process.holds, code, Code.held]
    obtain ⟨_, alone, others⟩ :=
      share_other member holds (atMostOne target isClient)
    -- the sender has the only token, so no signal is pending at the receiver
    have owesNothing :
        (machine.procs (machine.common.client target).pid).owes target = 0 := by
      by_cases self : (machine.common.client target).pid = pid
      · rw [self]
        simp only [Process.share, Process.holds, code, Code.held, if_true]
          at alone
        omega
      · have share := others _ (wired.alive _ running) self
        rw [Process.share] at share
        omega
    have notPending :
        (machine.procs (machine.common.client target).pid).pending signal =
          false := by
      have ownId := wired.id_of_running isClient running
      simp only [Process.owes, running, ownId, and_self, if_true] at owesNothing
      cases signal with
      | usr1 | usr2 =>
          rw [← Bool.toNat_eq_zero]
          omega
    rw [if_pos rfl, if_pos ⟨rfl, running, notPending⟩] at atId
    omega
  · simpa [here] using atId

/-- A signal to an exited process loses the token of its receiver. -/
theorem tokens_kill_lost
    (wired : Wired machine)
    (steps : machine.Steps (.kill pid) next)
    (lost : ¬ machine.delivers (.kill pid) = true) :
    ∃ i, i ∈ clientIds ∧ next.tokens i < machine.tokens i := by
  obtain ⟨target, signal, text, after, code, _, tokens⟩ :=
    tokens_kill wired steps
  simp only [delivers, code, Bool.or_eq_true, decide_eq_true_eq, not_or,
    not_not] at lost
  obtain ⟨isClient, notRunning⟩ := lost
  refine ⟨target, isClient, ?_⟩
  have atTarget := tokens target
  simp [notRunning] at atTarget
  omega

/-- A process that exits with a pending signal loses the token of its id. -/
theorem tokens_exit_lost
    (wired : Wired machine)
    (steps : machine.Steps (.exit pid) next)
    (lost : ¬ machine.delivers (.exit pid) = true) :
    ∃ i, i ∈ clientIds ∧ next.tokens i < machine.tokens i := by
  obtain ⟨member, running, _, code, _⟩ := steps_exit steps
  have someSignal : ∃ signal, (machine.procs pid).pending signal = true := by
    cases first : (machine.procs pid).pending .usr1 with
    | true => exact ⟨.usr1, first⟩
    | false =>
        cases second : (machine.procs pid).pending .usr2 with
        | true => exact ⟨.usr2, second⟩
        | false => simp [delivers, first, second] at lost
  obtain ⟨signal, pending⟩ := someSignal
  have isClient : (machine.procs pid).id ∈ clientIds := by
    rcases wired.named pid member with unnamed | isClient
    · rw [code] at unnamed
      cases unnamed
    · exact isClient
  have owes : 0 < (machine.procs pid).owes (machine.procs pid).id := by
    cases signal with
    | usr1 | usr2 =>
        simp [Process.owes, running, pending]
  refine ⟨(machine.procs pid).id, isClient, ?_⟩
  have atId := tokens_exit steps (machine.procs pid).id
  omega

theorem tokens_exit_kept
    (steps : machine.Steps (.exit pid) next)
    (reaches : machine.delivers (.exit pid) = true)
    (i : Nat) :
    next.tokens i = machine.tokens i := by
  obtain ⟨_, _, noFrames, _, _⟩ := steps_exit steps
  have atId := tokens_exit steps i
  simp only [delivers, Bool.and_eq_true, Bool.not_eq_true'] at reaches
  have unsignalled : (machine.procs pid).Unsignalled := by
    refine ⟨noFrames, fun signal => ?_⟩
    cases signal with
    | usr1 => exact reaches.1
    | usr2 => exact reaches.2
  have owesNothing := Process.owes_of_unsignalled unsignalled i
  omega

end Machine

/-! ## Tokens along runs -/

/--
Every mailbox has its token: in the lock, with a sender, or with a signal that
a living process will answer.  A lock at zero therefore has a living owner.
-/
structure MailboxesOwned
    (machine : Machine) : Prop where
  token : ∀ i, i ∈ clientIds → machine.tokens i = 1
  owner :
    ∀ i, i ∈ clientIds → (machine.common.client i).lock = 0 →
      ∃ pid ∈ machine.forked, (machine.procs pid).running = true ∧
        0 < (machine.procs pid).holds i + (machine.procs pid).owes i

/-- The owner of a token that is not in the lock is alive. -/
theorem MailboxesOwned.of_tokens
    {machine : Machine}
    (wired : Wired machine)
    (token : ∀ i, i ∈ clientIds → machine.tokens i = 1) :
    MailboxesOwned machine := by
  refine ⟨token, ?_⟩
  intro i isClient empty
  have one := token i isClient
  rw [Machine.tokens_eq_total] at one
  obtain ⟨pid, member, share⟩ := Custody.owner_exists one empty
  refine ⟨pid, member, ?_, share⟩
  by_contra notRunning
  rw [Bool.not_eq_true] at notRunning
  have code := wired.exited pid member notRunning
  simp [Process.share, Process.holds, Process.owes, code, Code.held,
    notRunning] at share

/-- One step keeps all tokens exactly when its signals are delivered. -/
theorem mailboxesOwned_step
    {machine next : Machine}
    {action : Action}
    (wired : Wired machine)
    (owned : MailboxesOwned machine)
    (steps : machine.Steps action next) :
    MailboxesOwned next ↔ machine.delivers action = true := by
  have nextWired := wired.step steps
  -- a token that was lost is missing afterwards
  have notOwned :
      (∃ i, i ∈ clientIds ∧ next.tokens i < machine.tokens i) →
        ¬ MailboxesOwned next := by
    rintro ⟨i, isClient, fewer⟩ nextOwned
    have before := owned.token i isClient
    have after := nextOwned.token i isClient
    omega
  have kept :
      (∀ i, i ∈ clientIds → next.tokens i = machine.tokens i) →
        MailboxesOwned next := by
    intro same
    refine .of_tokens nextWired fun i isClient => ?_
    rw [same i isClient, owned.token i isClient]
  cases action with
  | kill pid =>
      constructor
      · intro nextOwned
        by_contra lost
        exact notOwned (Machine.tokens_kill_lost wired steps lost) nextOwned
      · intro delivers
        exact kept fun i isClient =>
          Machine.tokens_kill_delivered wired
            (fun j member => (owned.token j member).le) steps delivers isClient
  | exit pid =>
      constructor
      · intro nextOwned
        by_contra lost
        exact notOwned (Machine.tokens_exit_lost wired steps lost) nextOwned
      · intro delivers
        exact kept fun i _ => Machine.tokens_exit_kept steps delivers i
  | _ =>
      refine ⟨fun _ => rfl, fun _ => kept fun i _ => ?_⟩
      exact Machine.tokens_kept wired steps (by simp) (by simp) i

theorem mailboxesOwned_initially
    (serverPid : Nat) :
    MailboxesOwned (Machine.initial serverPid) := by
  refine .of_tokens (Wired.initially serverPid) fun i isClient => ?_
  simpa [Machine.tokens, Machine.initial, Common.client,
    Shared.createSharedMem] using isClient

/--
One client logs in.  Another one does the same and, on its way to announce
itself, has the mailbox of the first in its hands and has seen it connected.
-/
def greetingActions : List Action :=
  [Action.fork 10 "a"] ++ List.replicate 41 (Action.main 10) ++
    [Action.waitLock, .waitRoom, .fork 11 "b"] ++ List.replicate 14 (Action.main 11)

/-- Tokens that are lost stay lost, and with them the lock. -/
theorem lock_zero_of_tokens_zero
    {machine : Machine}
    {i : Nat}
    {later : List (Action × Machine)}
    (wired : Wired machine)
    (lost : machine.tokens i = 0)
    (isPath : Path Machine.Steps machine later) :
    EveryState (fun state => (state.common.client i).lock = 0)
      machine later := by
  have both :
      EveryState (fun state => Wired state ∧ state.tokens i = 0)
        machine later := by
    refine Path.everyState ?_ ⟨wired, lost⟩ isPath
    rintro state action next ⟨before, none⟩ steps
    have fewer := Machine.tokens_step_le before steps i
    exact ⟨before.step steps, by omega⟩
  refine both.mono fun state known => ?_
  have none := known.2
  rw [Machine.tokens] at none
  omega

/--
Before the second client sends its signal, the first leaves and exits.
-/
def lostGreetingActions : List Action :=
  greetingActions ++ [Action.line 10 .exit] ++ List.replicate 42 (Action.main 10) ++
    [Action.kill 10] ++ List.replicate 30 (Action.main 10) ++ [Action.exit 10, .kill 11]

end NpServers.MultiProc
