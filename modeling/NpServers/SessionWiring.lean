import NpServers.SessionEffects
import NpServers.TransitionPath

namespace NpServers.MultiProc

open Shell TransitionPath

/-!
# Sessions and the process ids in the table

What each step of the machine can do, and the correspondence between the
entries of `client_list` and the processes they name.  An entry keeps the
process id of a session that left until the id is given out again, so it may
name a process that has exited, but never one with another id.
-/

/-! ## Changes of one process -/

namespace Machine

@[simp] theorem setBoth_common
    (machine : Machine)
    (pid : Nat)
    (result : Common × Process) :
    (machine.setBoth pid result).common = result.1 :=
  rfl

@[simp] theorem setBoth_forked
    (machine : Machine)
    (pid : Nat)
    (result : Common × Process) :
    (machine.setBoth pid result).forked = machine.forked :=
  rfl

@[simp] theorem setProc_common
    (machine : Machine)
    (pid : Nat)
    (proc : Process) :
    (machine.setProc pid proc).common = machine.common :=
  rfl

@[simp] theorem setProc_procs_self
    (machine : Machine)
    (pid : Nat)
    (proc : Process) :
    (machine.setProc pid proc).procs pid = proc :=
  Function.update_self _ _ _

theorem setProc_procs_of_ne
    {pid other : Nat}
    (different : other ≠ pid)
    (machine : Machine)
    (proc : Process) :
    (machine.setProc pid proc).procs other = machine.procs other :=
  Function.update_of_ne different _ _

@[simp] theorem setBoth_procs_self
    (machine : Machine)
    (pid : Nat)
    (result : Common × Process) :
    (machine.setBoth pid result).procs pid = result.2 :=
  setProc_procs_self machine pid result.2

theorem setBoth_procs_of_ne
    {pid other : Nat}
    (different : other ≠ pid)
    (machine : Machine)
    (result : Common × Process) :
    (machine.setBoth pid result).procs other = machine.procs other :=
  setProc_procs_of_ne different machine result.2

end Machine

/-! ## Inversion of single steps -/

namespace Machine

variable {machine next : Machine}
variable {pid : Nat}

theorem mainRuns_iff :
    machine.mainRuns pid = true ↔
      pid ∈ machine.forked ∧ (machine.procs pid).running = true ∧
        (machine.procs pid).frames = [] := by
  simp [mainRuns, and_assoc]

theorem steps_fork
    {peer : String}
    (steps : machine.Steps (.fork pid peer) next) :
    pid ∉ machine.forked ∧ pid ≠ 0 ∧ pid ≠ (machine.common.client 0).pid ∧
      next.common = machine.common ∧
      next.forked = insert pid machine.forked ∧
      next.procs = Function.update machine.procs pid (.forked peer) := by
  unfold Steps step at steps
  dsimp only at steps
  split at steps
  case isTrue guard =>
    obtain ⟨_, fresh, positive, notServer⟩ := guard
    cases steps
    exact ⟨fresh, positive, notServer, rfl, rfl, rfl⟩
  case isFalse => cases steps

theorem steps_waitLock
    (steps : machine.Steps .waitLock next) :
    (∀ i, next.common.client i = machine.common.client i) ∧
      next.common.acquired = machine.common.acquired ∧
      next.common.shared.connectState.minId =
        machine.common.shared.connectState.minId ∧
      next.forked = machine.forked ∧ next.procs = machine.procs := by
  unfold Steps step at steps
  dsimp only at steps
  split at steps
  · cases steps
    exact ⟨fun _ => rfl, rfl, rfl, rfl, rfl⟩
  · cases steps

theorem steps_waitRoom
    (steps : machine.Steps .waitRoom next) :
    next.common = machine.common ∧ next.forked = machine.forked ∧
      next.procs = machine.procs := by
  unfold Steps step at steps
  dsimp only at steps
  split at steps
  · cases steps
    exact ⟨rfl, rfl, rfl⟩
  · cases steps

theorem steps_main
    (steps : machine.Steps (.main pid) next) :
    pid ∈ machine.forked ∧ (machine.procs pid).running = true ∧
      (machine.procs pid).frames = [] ∧
      ∃ common' proc',
        mainStep pid machine.canOpenWriter machine.common
            (machine.procs pid) = some (common', proc') ∧
          next = machine.setBoth pid (common', proc') := by
  unfold Steps step at steps
  dsimp only at steps
  split at steps
  case isTrue runs =>
    obtain ⟨member, running, frames⟩ := mainRuns_iff.mp runs
    rw [Option.map_eq_some_iff] at steps
    obtain ⟨⟨common', proc'⟩, stepped, rfl⟩ := steps
    exact ⟨member, running, frames, common', proc', stepped, rfl⟩
  case isFalse => cases steps

theorem steps_line
    {line : Line}
    (steps : machine.Steps (.line pid line) next) :
    pid ∈ machine.forked ∧ (machine.procs pid).running = true ∧
      (machine.procs pid).code = .shell ∧
      next =
        machine.setProc pid (obey machine.common (machine.procs pid) line) := by
  unfold Steps step at steps
  dsimp only at steps
  split at steps
  case h_1 runs atShell =>
    obtain ⟨member, running, _⟩ := mainRuns_iff.mp runs
    cases steps
    exact ⟨member, running, atShell, rfl⟩
  case h_2 => cases steps

theorem steps_kill
    (steps : machine.Steps (.kill pid) next) :
    pid ∈ machine.forked ∧ (machine.procs pid).running = true ∧
      (machine.procs pid).frames = [] ∧
      ∃ target signal text after,
        (machine.procs pid).code = .send target signal text .kill after ∧
          next = machine.kill pid target signal text after := by
  unfold Steps step at steps
  dsimp only at steps
  split at steps
  case h_1 target signal text after runs atKill =>
    obtain ⟨member, running, frames⟩ := mainRuns_iff.mp runs
    cases steps
    exact ⟨member, running, frames, target, signal, text, after, atKill, rfl⟩
  case h_2 => cases steps

theorem steps_exit
    (steps : machine.Steps (.exit pid) next) :
    pid ∈ machine.forked ∧ (machine.procs pid).running = true ∧
      (machine.procs pid).frames = [] ∧ (machine.procs pid).code = .exit ∧
      next =
        machine.setProc pid { machine.procs pid with running := false } := by
  unfold Steps step at steps
  dsimp only at steps
  split at steps
  case h_1 runs atExit =>
    obtain ⟨member, running, frames⟩ := mainRuns_iff.mp runs
    cases steps
    exact ⟨member, running, frames, atExit, rfl⟩
  case h_2 => cases steps

theorem steps_deliver
    {signal : Signal}
    (steps : machine.Steps (.deliver pid signal) next) :
    pid ∈ machine.forked ∧ (machine.procs pid).running = true ∧
      (machine.procs pid).pending signal = true ∧
      next = machine.setProc pid ((machine.procs pid).interrupt signal) := by
  unfold Steps step at steps
  dsimp only at steps
  split at steps
  case isTrue guard =>
    obtain ⟨member, running, pending⟩ := guard
    cases steps
    exact ⟨member, running, pending, rfl⟩
  case isFalse => cases steps

theorem steps_handle
    {fd : Nat}
    (steps : machine.Steps (.handle pid fd) next) :
    pid ∈ machine.forked ∧ (machine.procs pid).running = true ∧
      ∃ common' proc',
        handlerStep machine.canOpenReader fd machine.common
            (machine.procs pid) = some (common', proc') ∧
          next = machine.setBoth pid (common', proc') := by
  unfold Steps step at steps
  dsimp only at steps
  split at steps
  case isTrue guard =>
    rw [Option.map_eq_some_iff] at steps
    obtain ⟨⟨common', proc'⟩, stepped, rfl⟩ := steps
    exact ⟨guard.1, guard.2, common', proc', stepped, rfl⟩
  case isFalse => cases steps

/-! ## Properties of every process -/

/-- What a step has to leave of a property of the processes. -/
structure Keeps
    (machine : Machine)
    (action : Action)
    (holds : Process → Prop) : Prop where
  forked : ∀ {pid peer}, action = .fork pid peer → holds (.forked peer)
  main :
    ∀ {pid common' proc'},
      action = .main pid →
      pid ∈ machine.forked →
      (machine.procs pid).frames = [] →
      mainStep pid machine.canOpenWriter machine.common (machine.procs pid) =
        some (common', proc') →
      holds proc'
  line :
    ∀ {pid line},
      action = .line pid line →
      pid ∈ machine.forked →
      (machine.procs pid).code = .shell →
      holds (obey machine.common (machine.procs pid) line)
  sent :
    ∀ {pid target signal text after},
      action = .kill pid →
      pid ∈ machine.forked →
      (machine.procs pid).code = .send target signal text .kill after →
      holds ((machine.procs pid).goto after.signalled)
  receive : ∀ {proc letter}, holds proc → holds (proc.receive letter)
  exit :
    ∀ {pid},
      pid ∈ machine.forked → holds { machine.procs pid with running := false }
  interrupt :
    ∀ {pid signal},
      pid ∈ machine.forked → holds ((machine.procs pid).interrupt signal)
  handle :
    ∀ {pid fd common' proc'},
      pid ∈ machine.forked →
      handlerStep machine.canOpenReader fd machine.common (machine.procs pid) =
        some (common', proc') →
      holds proc'

/-- Such a property holds of all processes after the step. -/
theorem Keeps.step
    {action : Action}
    {holds : Process → Prop}
    (keeps : machine.Keeps action holds)
    (known : ∀ pid ∈ machine.forked, holds (machine.procs pid))
    (steps : machine.Steps action next) :
    ∀ pid ∈ next.forked, holds (next.procs pid) := by
  have one (pid : Nat) {proc' : Process} (result : holds proc') :
      ∀ other ∈ machine.forked,
        holds (Function.update machine.procs pid proc' other) := by
    intro other member
    by_cases here : other = pid
    · subst here
      rw [Function.update_self]
      exact result
    · rw [Function.update_of_ne here]
      exact known other member
  cases action with
  | fork pid peer =>
      obtain ⟨fresh, _, _, _, forks, procs⟩ := steps_fork steps
      intro other member
      rw [forks] at member
      rw [procs]
      rcases Finset.mem_insert.mp member with rfl | old
      · rw [Function.update_self]
        exact keeps.forked rfl
      · exact one pid (keeps.forked rfl) other old
  | waitLock =>
      obtain ⟨_, _, _, sameForked, sameProcs⟩ := steps_waitLock steps
      rw [sameForked, sameProcs]
      exact known
  | waitRoom =>
      obtain ⟨_, sameForked, sameProcs⟩ := steps_waitRoom steps
      rw [sameForked, sameProcs]
      exact known
  | main pid =>
      obtain ⟨member, _, noFrames, common', proc', stepped, rfl⟩ :=
        steps_main steps
      exact one pid (keeps.main rfl member noFrames stepped)
  | line pid line =>
      obtain ⟨member, _, atShell, rfl⟩ := steps_line steps
      exact one pid (keeps.line rfl member atShell)
  | kill pid =>
      obtain ⟨member, _, _, target, signal, text, after, code, rfl⟩ :=
        steps_kill steps
      have sent := one pid (keeps.sent rfl member code)
      intro other otherMember
      unfold kill
      dsimp only [setProc]
      by_cases here : other = (machine.common.client target).pid
      · rw [← here, Function.update_self]
        exact keeps.receive (sent other otherMember)
      · rw [Function.update_of_ne here]
        exact sent other otherMember
  | exit pid =>
      obtain ⟨member, _, _, _, rfl⟩ := steps_exit steps
      exact one pid (keeps.exit member)
  | deliver pid signal =>
      obtain ⟨member, _, _, rfl⟩ := steps_deliver steps
      exact one pid (keeps.interrupt member)
  | handle pid fd =>
      obtain ⟨member, _, common', proc', stepped, rfl⟩ :=
        steps_handle steps
      exact one pid (keeps.handle member stepped)

/-! ## Runs -/

/--
The run that takes some actions from the start of the server.  It is only
evaluated by the kernel.
-/
@[irreducible] def actionPath
    (serverPid : Nat)
    (actions : List Action) : List (Action × Machine) :=
  (trace step (initial serverPid) actions).getD []

/-- A run whose actions are all possible is a path of the machine. -/
theorem path_actionPath
    {serverPid : Nat}
    {actions : List Action}
    (completes : (trace step (initial serverPid) actions).isSome = true) :
    Path Steps (initial serverPid) (actionPath serverPid actions) := by
  unfold actionPath
  exact path_trace completes

/-- Two clients log in. -/
def twoLoginActions : List Action :=
  [Action.fork 10 "a"] ++ List.replicate 41 (Action.main 10) ++
    [Action.waitLock, .waitRoom, .fork 11 "b"] ++ List.replicate 14 (Action.main 11) ++
    [Action.kill 11] ++ List.replicate 30 (Action.main 11)

end Machine

/-- A line with a pipe to another client. -/
def pipeLine (userOutId : Nat) : CmdLine where
  cmd := "ls"
  userInId := 0
  userOutId := userOutId
  crossed := false
  expired := false
  piped := false

/-! ## Process ids in the table -/

/-- No signal has reached the process. -/
def Process.Unsignalled
    (proc : Process) : Prop :=
  proc.frames = [] ∧ ∀ signal, proc.pending signal = false

/--
The entry of a client id names no process or one that took this id, and no
signal reaches a process before its entry names it.
-/
structure Wired
    (machine : Machine) : Prop where
  minId : machine.common.shared.connectState.minId ∈ clientIds
  zero : 0 ∉ machine.forked
  server : (machine.common.client 0).pid ∉ machine.forked
  alive :
    ∀ pid, (machine.procs pid).running = true → pid ∈ machine.forked
  outside :
    ∀ i, i ∉ clientIds →
      (machine.common.client i).pid = 0 ∨
        (machine.common.client i).pid = (machine.common.client 0).pid
  entry :
    ∀ i, i ∈ clientIds →
      (machine.common.client i).pid = 0 ∨
        (machine.common.client i).pid ∈ machine.forked ∧
          (machine.procs (machine.common.client i).pid).id = i ∧
          (machine.procs (machine.common.client i).pid).code.unnamed = false
  named :
    ∀ pid, pid ∈ machine.forked →
      (machine.procs pid).code.unnamed = true ∨
        (machine.procs pid).id ∈ clientIds
  unsignalled :
    ∀ pid, pid ∈ machine.forked →
      (machine.procs pid).code.unnamed = true →
        (machine.procs pid).Unsignalled
  exited :
    ∀ pid, pid ∈ machine.forked →
      (machine.procs pid).running = false → (machine.procs pid).code = .exit

namespace Wired

variable {machine next : Machine}

theorem initially
    (serverPid : Nat) :
    Wired (Machine.initial serverPid) where
  minId := by
    change 1 ∈ clientIds
    decide
  zero := by simp [Machine.initial]
  server := by simp [Machine.initial]
  alive := by simp [Machine.initial]
  outside := by
    intro i _
    by_cases server : i = 0
    · exact .inr (by rw [server])
    · exact .inl (by
        simp [Machine.initial, Common.client, Shared.createSharedMem, server])
  entry := by
    intro i member
    have positive : i ≠ 0 := by
      rintro rfl
      revert member
      decide
    exact .inl (by
      simp [Machine.initial, Common.client, Shared.createSharedMem, positive])
  named := by simp [Machine.initial]
  unsignalled := by simp [Machine.initial]
  exited := by simp [Machine.initial]

theorem zero_not_client : 0 ∉ clientIds := by
  decide

/-- A running process that an entry of a client id names has taken this id. -/
theorem id_of_running
    (wired : Wired machine)
    {i : Nat}
    (member : i ∈ clientIds)
    (running :
      (machine.procs (machine.common.client i).pid).running = true) :
    (machine.procs (machine.common.client i).pid).id = i := by
  rcases wired.entry i member with none | ⟨_, sameId, _⟩
  · have forked := wired.alive _ running
    rw [none] at forked
    exact (wired.zero forked).elim
  · exact sameId

/-- A running process that an entry of a client id names is past its login. -/
theorem named_of_running
    (wired : Wired machine)
    {i : Nat}
    (member : i ∈ clientIds)
    (running :
      (machine.procs (machine.common.client i).pid).running = true) :
    (machine.procs (machine.common.client i).pid).code.unnamed = false := by
  rcases wired.entry i member with none | ⟨_, _, named⟩
  · have forked := wired.alive _ running
    rw [none] at forked
    exact (wired.zero forked).elim
  · exact named

/-- The entries outside the client ids name no running process. -/
theorem not_running_outside
    (wired : Wired machine)
    {i : Nat}
    (outside : i ∉ clientIds) :
    (machine.procs (machine.common.client i).pid).running = false := by
  rw [Bool.eq_false_iff]
  intro running
  have forked := wired.alive _ running
  rcases wired.outside i outside with none | server
  · rw [none] at forked
    exact wired.zero forked
  · rw [server] at forked
    exact wired.server forked

/-- The condition on ids that a statement of a forked process relies on. -/
theorem numbered
    (wired : Wired machine)
    {pid : Nat}
    (member : pid ∈ machine.forked) :
    Numbered machine.common (machine.procs pid) :=
  ⟨wired.minId, wired.named pid member⟩

/-- Changing one process keeps the wiring when it keeps all names. -/
theorem setBoth
    (wired : Wired machine)
    {pid : Nat}
    (member : pid ∈ machine.forked)
    {common' : Common}
    {proc' : Process}
    (names : SameNames machine.common (machine.procs pid) common' proc')
    (unsignalled : proc'.code.unnamed = true → proc'.Unsignalled)
    (exited : proc'.running = false → proc'.code = .exit) :
    Wired (machine.setBoth pid (common', proc')) := by
  constructor
  case minId => exact names.minId (wired.numbered member)
  case zero => exact wired.zero
  case server =>
    change (common'.client 0).pid ∉ machine.forked
    rw [names.pid]
    exact wired.server
  case alive =>
    intro other alive
    by_cases here : other = pid
    · subst here
      exact member
    · rw [Machine.setBoth_procs_of_ne here] at alive
      exact wired.alive other alive
  case outside =>
    intro i notClient
    change (common'.client i).pid = 0 ∨
      (common'.client i).pid = (common'.client 0).pid
    rw [names.pid, names.pid]
    exact wired.outside i notClient
  case entry =>
    intro i isClient
    have samePid :
        ((machine.setBoth pid (common', proc')).common.client i).pid =
          (machine.common.client i).pid :=
      names.pid i
    rw [samePid]
    rcases wired.entry i isClient with none | ⟨forked, sameId, named⟩
    · exact .inl none
    · refine .inr ⟨forked, ?_⟩
      by_cases here : (machine.common.client i).pid = pid
      · rw [here] at sameId named ⊢
        rw [Machine.setBoth_procs_self]
        exact ⟨names.id.trans sameId, names.unnamed.trans named⟩
      · rw [Machine.setBoth_procs_of_ne here]
        exact ⟨sameId, named⟩
  case named =>
    intro other forked
    by_cases here : other = pid
    · subst here
      rw [Machine.setBoth_procs_self, names.id, names.unnamed]
      exact wired.named other forked
    · rw [Machine.setBoth_procs_of_ne here]
      exact wired.named other forked
  case unsignalled =>
    intro other forked unnamed
    by_cases here : other = pid
    · subst here
      rw [Machine.setBoth_procs_self] at unnamed ⊢
      exact unsignalled unnamed
    · rw [Machine.setBoth_procs_of_ne here] at unnamed ⊢
      exact wired.unsignalled other forked unnamed
  case exited =>
    intro other forked stopped
    by_cases here : other = pid
    · subst here
      rw [Machine.setBoth_procs_self] at stopped ⊢
      exact exited stopped
    · rw [Machine.setBoth_procs_of_ne here] at stopped ⊢
      exact wired.exited other forked stopped

/-- Changing one process alone. -/
theorem setProc
    (wired : Wired machine)
    {pid : Nat}
    (member : pid ∈ machine.forked)
    {proc' : Process}
    (id : proc'.id = (machine.procs pid).id)
    (unnamed :
      proc'.code.unnamed = (machine.procs pid).code.unnamed)
    (unsignalled : proc'.code.unnamed = true → proc'.Unsignalled)
    (exited : proc'.running = false → proc'.code = .exit) :
    Wired (machine.setProc pid proc') :=
  wired.setBoth member
    ⟨fun _ => rfl, id, unnamed, fun numbered => numbered.1⟩ unsignalled exited

theorem fork
    {pid : Nat}
    {peer : String}
    (wired : Wired machine)
    (steps : machine.Steps (.fork pid peer) next) :
    Wired next := by
  obtain ⟨fresh, positive, notServer, sameCommon, forks, procs⟩ :=
    Machine.steps_fork steps
  have procs_self : next.procs pid = .forked peer := by
    rw [procs, Function.update_self]
  have procs_of_ne :
      ∀ other, other ≠ pid → next.procs other = machine.procs other := by
    intro other different
    rw [procs, Function.update_of_ne different]
  constructor
  case minId => exact sameCommon ▸ wired.minId
  case zero =>
    rw [forks, Finset.mem_insert]
    rintro (here | forked)
    · exact positive here.symm
    · exact wired.zero forked
  case server =>
    rw [forks, sameCommon, Finset.mem_insert]
    rintro (here | forked)
    · exact notServer here.symm
    · exact wired.server forked
  case alive =>
    intro other alive
    rw [forks, Finset.mem_insert]
    by_cases here : other = pid
    · exact .inl here
    · rw [procs_of_ne other here] at alive
      exact .inr (wired.alive other alive)
  case outside =>
    intro i notClient
    rw [sameCommon]
    exact wired.outside i notClient
  case entry =>
    intro i isClient
    rw [sameCommon]
    rcases wired.entry i isClient with none | ⟨forked, known⟩
    · exact .inl none
    · have different : (machine.common.client i).pid ≠ pid := by
        intro here
        exact fresh (here ▸ forked)
      rw [procs_of_ne _ different, forks]
      exact .inr ⟨Finset.mem_insert_of_mem forked, known⟩
  case named =>
    intro other forked
    by_cases here : other = pid
    · subst here
      rw [procs_self]
      exact .inl rfl
    · rw [forks, Finset.mem_insert] at forked
      rw [procs_of_ne other here]
      exact wired.named other (forked.resolve_left here)
  case unsignalled =>
    intro other forked
    by_cases here : other = pid
    · subst here
      rw [procs_self]
      exact fun _ => ⟨rfl, fun _ => rfl⟩
    · rw [forks, Finset.mem_insert] at forked
      rw [procs_of_ne other here]
      exact wired.unsignalled other (forked.resolve_left here)
  case exited =>
    intro other forked
    by_cases here : other = pid
    · subst here
      rw [procs_self]
      simp [Process.forked]
    · rw [forks, Finset.mem_insert] at forked
      rw [procs_of_ne other here]
      exact wired.exited other (forked.resolve_left here)

/-- A process takes its id before any entry names it. -/
theorem takeId
    {pid : Nat}
    (wired : Wired machine)
    (member : pid ∈ machine.forked)
    (running : (machine.procs pid).running = true)
    (code : (machine.procs pid).code = .takeId) :
    Wired (machine.setProc pid
      ({ machine.procs pid with
        id := machine.common.shared.connectState.minId }.goto .countLogin)) := by
  have notNamed :
      ∀ i, i ∈ clientIds → (machine.common.client i).pid ≠ pid ∨
        (machine.common.client i).pid = 0 := by
    intro i isClient
    rcases wired.entry i isClient with none | ⟨_, _, named⟩
    · exact .inr none
    · left
      intro here
      rw [here, code] at named
      cases named
  constructor
  case minId => exact wired.minId
  case zero => exact wired.zero
  case server => exact wired.server
  case alive =>
    intro other alive
    by_cases here : other = pid
    · exact here ▸ member
    · rw [Machine.setProc_procs_of_ne here] at alive
      exact wired.alive other alive
  case outside => exact wired.outside
  case entry =>
    intro i isClient
    rw [Machine.setProc_common]
    rcases notNamed i isClient with different | none
    · rw [Machine.setProc_procs_of_ne different]
      exact wired.entry i isClient
    · exact .inl none
  case named =>
    intro other forked
    by_cases here : other = pid
    · subst here
      rw [Machine.setProc_procs_self]
      exact .inr wired.minId
    · rw [Machine.setProc_procs_of_ne here]
      exact wired.named other forked
  case unsignalled =>
    intro other forked
    by_cases here : other = pid
    · subst here
      simp [Code.unnamed]
    · rw [Machine.setProc_procs_of_ne here]
      exact wired.unsignalled other forked
  case exited =>
    intro other forked
    by_cases here : other = pid
    · subst here
      simp [Process.goto, running]
    · rw [Machine.setProc_procs_of_ne here]
      exact wired.exited other forked

/-- A process stores its process id in the entry of its id. -/
theorem storePid
    {pid : Nat}
    (wired : Wired machine)
    (member : pid ∈ machine.forked)
    (running : (machine.procs pid).running = true)
    (code : (machine.procs pid).code = .storePid) :
    Wired (machine.setBoth pid
      (machine.common.setClient (machine.procs pid).id
          fun client => { client with pid := pid },
        (machine.procs pid).goto .storeState)) := by
  have ownId : (machine.procs pid).id ∈ clientIds := by
    rcases wired.named pid member with unnamed | isClient
    · rw [code] at unnamed
      cases unnamed
    · exact isClient
  have goesOn : Wired (machine.setProc pid
      ((machine.procs pid).goto .storeState)) :=
    wired.setProc member rfl (by rw [code]; rfl) (by simp [Code.unnamed])
      (by simp [Process.goto, running])
  -- only the entry of the own id changes, and no other id is affected by it
  have pid_self :
      ((machine.common.setClient (machine.procs pid).id fun client =>
        { client with pid := pid }).client (machine.procs pid).id).pid = pid := by
    simp
  have pid_of_ne :
      ∀ i, i ≠ (machine.procs pid).id →
        ((machine.common.setClient (machine.procs pid).id fun client =>
          { client with pid := pid }).client i).pid =
          (machine.common.client i).pid := by
    intro i different
    rw [Common.client_setClient_of_ne different]
  have notOwn :
      ∀ i, i ∉ clientIds → i ≠ (machine.procs pid).id := by
    rintro i notClient rfl
    exact notClient ownId
  constructor
  case minId => exact wired.minId
  case zero => exact wired.zero
  case server =>
    change ((machine.common.setClient _ _).client 0).pid ∉ machine.forked
    rw [pid_of_ne 0 (notOwn 0 zero_not_client)]
    exact wired.server
  case alive => exact goesOn.alive
  case outside =>
    intro i notClient
    change ((machine.common.setClient _ _).client i).pid = 0 ∨
      ((machine.common.setClient _ _).client i).pid =
        ((machine.common.setClient _ _).client 0).pid
    rw [pid_of_ne i (notOwn i notClient),
      pid_of_ne 0 (notOwn 0 zero_not_client)]
    exact wired.outside i notClient
  case entry =>
    intro i isClient
    by_cases here : i = (machine.procs pid).id
    · right
      simp [Machine.setBoth, Machine.setProc, here, Code.unnamed, member]
    · have same := pid_of_ne i here
      have before := goesOn.entry i isClient
      simp only [Machine.setBoth, same]
      exact before
  case named => exact goesOn.named
  case unsignalled => exact goesOn.unsignalled
  case exited => exact goesOn.exited

theorem main
    {pid : Nat}
    (wired : Wired machine)
    (steps : machine.Steps (.main pid) next) :
    Wired next := by
  obtain ⟨member, running, _, common', proc', stepped, rfl⟩ :=
    Machine.steps_main steps
  rcases mainStep_names stepped with
    ⟨code, rfl, rfl⟩ | ⟨code, rfl, rfl⟩ | names
  · exact wired.takeId member running code
  · exact wired.storePid member running code
  · refine wired.setBoth member names ?_
      (by simp [(mainStep_signals stepped).running, running])
    intro unnamed
    rw [names.unnamed] at unnamed
    obtain ⟨noFrames, noPending⟩ := wired.unsignalled pid member unnamed
    have signals := mainStep_signals stepped
    exact ⟨signals.frames.trans noFrames,
      fun signal => by rw [signals.pending, noPending]⟩

/-- A signal through an entry reaches a process that has taken its id. -/
theorem receive
    (wired : Wired machine)
    (target : Nat)
    (letter : Letter) :
    Wired (machine.setProc (machine.common.client target).pid
      ((machine.procs (machine.common.client target).pid).receive letter)) := by
  cases running :
      (machine.procs (machine.common.client target).pid).running with
  | false =>
      simp only [Process.receive, running, Machine.setProc,
        Function.update_eq_self, Bool.false_eq_true, ↓reduceIte]
      exact wired
  | true =>
      have member := wired.alive _ running
      have named :
          (machine.procs
            (machine.common.client target).pid).code.unnamed = false := by
        by_cases isClient : target ∈ clientIds
        · exact wired.named_of_running isClient running
        · have exited := wired.not_running_outside isClient
          rw [running] at exited
          cases exited
      simp only [Process.receive, running, if_true]
      refine wired.setProc member rfl rfl ?_ (by simp)
      intro unnamed
      rw [named] at unnamed
      cases unnamed

/-- A sender goes on after its signal. -/
theorem sent
    {pid target : Nat}
    {signal : Signal}
    {text : String}
    {after : AfterSend}
    (wired : Wired machine)
    (member : pid ∈ machine.forked)
    (running : (machine.procs pid).running = true)
    (code : (machine.procs pid).code = .send target signal text .kill after) :
    Wired (machine.setProc pid
      ((machine.procs pid).goto after.signalled)) :=
  wired.setProc member rfl
    (by rw [Process.goto_code, after.unnamed_signalled, code]; rfl)
    (by simp) (by simp [Process.goto, running])

theorem kill
    {pid : Nat}
    (wired : Wired machine)
    (steps : machine.Steps (.kill pid) next) :
    Wired next := by
  obtain ⟨member, running, _, target, signal, text, after, code, rfl⟩ :=
    Machine.steps_kill steps
  have sent := wired.sent member running code
  exact sent.receive target _

/-- The wiring is kept by every step. -/
theorem step
    {action : Action}
    (wired : Wired machine)
    (steps : machine.Steps action next) :
    Wired next := by
  cases action with
  | fork pid peer => exact wired.fork steps
  | waitLock =>
      obtain ⟨clients, _, minId, forked, procs⟩ :=
        Machine.steps_waitLock steps
      constructor
      case minId => exact minId ▸ wired.minId
      case zero => exact forked ▸ wired.zero
      case server => exact clients 0 ▸ forked ▸ wired.server
      case alive => exact procs ▸ forked ▸ wired.alive
      case outside =>
        intro i
        rw [clients, clients]
        exact wired.outside i
      case entry =>
        intro i
        rw [clients, procs, forked]
        exact wired.entry i
      case named => exact procs ▸ forked ▸ wired.named
      case unsignalled => exact procs ▸ forked ▸ wired.unsignalled
      case exited => exact procs ▸ forked ▸ wired.exited
  | waitRoom =>
      obtain ⟨common, forked, procs⟩ := Machine.steps_waitRoom steps
      obtain ⟨minId, zero, server, alive, outside, entry, named, unsignalled,
        exited⟩ := wired
      rw [← common] at minId server outside entry
      rw [← forked] at zero server alive entry named unsignalled exited
      rw [← procs] at alive entry named unsignalled exited
      exact ⟨minId, zero, server, alive, outside, entry, named, unsignalled,
        exited⟩
  | main pid => exact wired.main steps
  | line pid line =>
      obtain ⟨member, running, atShell, rfl⟩ := Machine.steps_line steps
      obtain ⟨sameId, named⟩ := obey_names atShell machine.common line
      have held : (machine.procs pid).code.held = none := by
        rw [atShell]
        rfl
      refine wired.setProc member sameId ?_ (by simp [named]) ?_
      · rw [named, atShell]
        rfl
      · rw [(obey_quiet held machine.common line).signals.running, running]
        simp
  | kill pid => exact wired.kill steps
  | exit pid =>
      obtain ⟨member, _, _, atExit, rfl⟩ := Machine.steps_exit steps
      refine wired.setProc member rfl rfl ?_ fun _ => atExit
      simp [atExit, Code.unnamed]
  | deliver pid signal =>
      obtain ⟨member, running, pending, rfl⟩ := Machine.steps_deliver steps
      refine wired.setProc member rfl rfl ?_
        (by simp [Process.interrupt, running])
      intro unnamed
      have noPending := (wired.unsignalled pid member unnamed).2 signal
      rw [pending] at noPending
      cases noPending
  | handle pid fd =>
      obtain ⟨member, running, common', proc', stepped, rfl⟩ :=
        Machine.steps_handle steps
      have names := handlerStep_names stepped
      refine wired.setBoth member names ?_
        (by simp [(handlerStep_sameMain stepped).running, running])
      intro unnamed
      rw [names.unnamed] at unnamed
      have noFrames := (wired.unsignalled pid member unnamed).1
      simp [handlerStep, noFrames] at stepped

/-- The wiring holds throughout a run. -/
theorem everyState
    {serverPid : Nat}
    {path : List (Action × Machine)}
    (isPath : Path Machine.Steps (Machine.initial serverPid) path) :
    EveryState Wired (Machine.initial serverPid) path := by
  refine Path.everyState ?_ (Wired.initially serverPid) isPath
  intro state action next wired steps
  exact wired.step steps

end Wired

end NpServers.MultiProc
