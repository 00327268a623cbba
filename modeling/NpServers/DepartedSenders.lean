import NpServers.SlotTenure
import NpServers.MailboxDelivery

namespace NpServers.MultiProc

open Shell TransitionPath

/-!
# User pipes of departed senders

`user_pipe_handler` stores the descriptor of a fifo some time after the sender
has returned from its own `open`.  A leaving client forgets the pipes it has
sent by a pass over its column of the table, entry by entry, under `lock2`, which
the handlers do not take.  When no such pass overtakes a handler, and no login
is given an id that is in use, every stored descriptor belongs to a fifo of a
session that is not over.
-/

/-! ## Facts about every single process -/

/-- A property that survives everything that can happen to a process. -/
structure Process.Kept
    (holds : Process → Prop) : Prop where
  forked : ∀ peer, holds (.forked peer)
  main :
    ∀ {self canOpen common common' proc proc'},
      holds proc →
      proc.frames = [] →
      mainStep self canOpen common proc = some (common', proc') →
      holds proc'
  line :
    ∀ {common proc line},
      holds proc → proc.code = .shell → holds (obey common proc line)
  sent :
    ∀ {proc target signal text after},
      holds proc →
      proc.code = .send target signal text .kill after →
      holds (proc.goto after.signalled)
  receive : ∀ {proc letter}, holds proc → holds (proc.receive letter)
  exit : ∀ {proc}, holds proc → holds { proc with running := false }
  interrupt : ∀ {proc signal}, holds proc → holds (proc.interrupt signal)
  handle :
    ∀ {canOpen fd common common' proc proc'},
      holds proc →
      handlerStep canOpen fd common proc = some (common', proc') →
      holds proc'

/-- Such a property is kept for all processes by every step of the machine. -/
theorem Process.Kept.step
    {holds : Process → Prop}
    (kept : Kept holds)
    {machine next : Machine}
    {action : Action}
    (known : ∀ pid ∈ machine.forked, holds (machine.procs pid))
    (steps : machine.Steps action next) :
    ∀ pid ∈ next.forked, holds (next.procs pid) := by
  refine Machine.Keeps.step ?_ known steps
  constructor
  case forked =>
    intro pid peer _
    exact kept.forked peer
  case main =>
    intro pid common' proc' _ member noFrames stepped
    exact kept.main (known pid member) noFrames stepped
  case line =>
    intro pid line _ member atShell
    exact kept.line (known pid member) atShell
  case sent =>
    intro pid target signal text after _ member code
    exact kept.sent (known pid member) code
  case receive =>
    intro proc letter
    exact kept.receive
  case exit =>
    intro pid member
    exact kept.exit (known pid member)
  case interrupt =>
    intro pid signal member
    exact kept.interrupt (known pid member)
  case handle =>
    intro pid fd common' proc' member stepped
    exact kept.handle (known pid member) stepped

/-- The broadcast of the logout follows the end of the shell. -/
def AfterBroadcast.leaving :
    AfterBroadcast → Bool
  | .unlockLogout => true
  | _ => false

/-- The messages of the logout follow the end of the shell. -/
def AfterSend.leaving :
    AfterSend → Bool
  | .broadcast _ _ after => after.leaving
  | _ => false

/-- The statements behind the end of the shell. -/
def Code.leaving :
    Code → Bool
  | .lockLogout | .clearState | .clearRow | .clearColumn _ _ | .countLogout _
  | .lowerMinId _ | .unlockLogout | .exit => true
  | .broadcast _ _ after => after.leaving
  | .send _ _ _ _ after => after.leaving
  | _ => false

theorem leavingFlat :
    Flat Code.leaving AfterBroadcast.leaving := by
  constructor <;> intros <;> rfl

/-- Only the end of the shell leads to the statements behind it. -/
theorem mainStep_leaving
    {self : Nat}
    {canOpen : String → Bool}
    {common common' : Common}
    {proc proc' : Process}
    (steps : mainStep self canOpen common proc = some (common', proc'))
    (leaving : proc'.code.leaving = true) :
    proc.code.leaving = true ∨ proc'.stopped = true := by
  cases interactive : proc.code.interactive with
  | true =>
      rw [leavingFlat.mainStep interactive steps] at leaving
      exact Or.inl leaving
  | false =>
      cases code : proc.code with
      | stop =>
          simp only [mainStep, code] at steps
          cases steps
          exact Or.inr rfl
      | lockLogout | clearState | clearRow | clearColumn name i
      | countLogout name | lowerMinId name | unlockLogout | exit =>
          exact Or.inl rfl
      | lockLogin =>
          simp only [mainStep, code] at steps
          split at steps
          all_goals
            cases steps
            try cases leaving
      | takeId | countLogin | storePid | storeState | storeName | scanMinId
      | postLock | unlockLogin | printLoginMsg | shell =>
          simp only [mainStep, code] at steps
          cases steps
          try cases leaving
      | _ =>
          rw [code] at interactive
          cases interactive

/-- A statement behind the end of the shell keeps the process stopped. -/
theorem mainStep_stopped
    {self : Nat}
    {canOpen : String → Bool}
    {common common' : Common}
    {proc proc' : Process}
    (steps : mainStep self canOpen common proc = some (common', proc'))
    (stopped : proc.stopped = true) :
    proc'.stopped = true := by
  by_contra notStopped
  rw [Bool.not_eq_true] at notStopped
  rw [(mainStep_signals steps).stopped notStopped] at stopped
  cases stopped

/-- A `SIGUSR2` is only sent by `create_user_pipe`, which then opens the fifo. -/
def Code.announcesFifo :
    Code → Bool
  | .send _ .usr2 _ _ (.openFifo _ _) => true
  | .send _ .usr2 _ _ _ => false
  | _ => true

theorem PipeVars.announcesFifo_start
    (vars : PipeVars) :
    vars.start.announcesFifo = true := by
  unfold PipeVars.start
  split <;> rfl

theorem PipeVars.announcesFifo_created
    (vars : PipeVars) :
    vars.created.announcesFifo = true := by
  unfold PipeVars.created
  split <;> rfl

theorem PipeVars.announcesFifo_consumed
    (vars : PipeVars) :
    vars.consumed.announcesFifo = true := by
  unfold PipeVars.consumed
  split <;> rfl

theorem AfterBroadcast.announcesFifo_code
    (after : AfterBroadcast) :
    after.code.announcesFifo = true := by
  cases after with
  | userPipes vars => exact vars.announcesFifo_start
  | shell | announceOut | unlockLogout => rfl

theorem AfterSend.announcesFifo_signalled
    (after : AfterSend) :
    after.signalled.announcesFifo = true := by
  cases after <;> rfl

theorem AfterSend.announcesFifo_released
    (after : AfterSend) :
    after.released.announcesFifo = true := by
  cases after with
  | openFifo path vars => exact vars.announcesFifo_created
  | broadcast | shell => rfl

/-- What follows a message is fixed when it starts. -/
theorem Code.announcesFifo_send
    {target target' : Nat}
    {signal : Signal}
    {text text' : String}
    {stage stage' : SendStage}
    (after : AfterSend) :
    (Code.send target' signal text' stage' after).announcesFifo =
      (Code.send target signal text stage after).announcesFifo := by
  cases signal <;> cases after <;> rfl

theorem sendStep_announcesFifo
    {self : Nat}
    {common common' : Common}
    {proc proc' : Process}
    {target : Nat}
    {signal : Signal}
    {text : String}
    {after : AfterSend}
    {stage : SendStage}
    (announces :
      (Code.send target signal text stage after).announcesFifo = true)
    (steps :
      sendStep self common proc target signal text after stage =
        some (common', proc')) :
    proc'.code.announcesFifo = true := by
  cases stage with
  | wait | check =>
      simp only [sendStep] at steps
      split at steps
      all_goals
        cases steps
        try exact (Code.announcesFifo_send after).trans announces
  | copy | mark =>
      simp only [sendStep] at steps
      cases steps
      exact (Code.announcesFifo_send after).trans announces
  | kill => cases steps
  | release =>
      simp only [sendStep] at steps
      cases steps
      exact after.announcesFifo_released

theorem mainStep_announcesFifo
    {self : Nat}
    {canOpen : String → Bool}
    {common common' : Common}
    {proc proc' : Process}
    (announces : proc.code.announcesFifo = true)
    (steps : mainStep self canOpen common proc = some (common', proc')) :
    proc'.code.announcesFifo = true := by
  cases code : proc.code with
  | send target signal text stage after =>
      rw [code] at announces
      simp only [mainStep, code] at steps
      exact sendStep_announcesFifo announces steps
  | shell | exit =>
      simp [mainStep, code] at steps
  | broadcast msg i after =>
      simp only [mainStep, code] at steps
      cases steps
      unfold broadcastStep
      split
      · exact after.announcesFifo_code
      · split
        · split <;> rfl
        · rfl
  | nameScan name i =>
      simp only [mainStep, code] at steps
      cases steps
      unfold nameStep
      split
      · rfl
      · split <;> rfl
  | announceIn vars =>
      simp only [mainStep, code] at steps
      cases steps
      unfold announceIn
      dsimp only
      split
      · rfl
      · split
        · rfl
        · split <;> rfl
  | announceOut vars =>
      simp only [mainStep, code] at steps
      cases steps
      unfold announceOut
      dsimp only
      split
      · exact vars.announcesFifo_start
      · split
        · exact vars.announcesFifo_start
        · split
          · exact vars.announcesFifo_start
          · rfl
  | createPipe vars =>
      simp only [mainStep, code] at steps
      split at steps
      · cases steps
        rfl
      · cases steps
        exact vars.announcesFifo_created
  | openFifo path vars =>
      simp only [mainStep, code] at steps
      split at steps
      · cases steps
        exact vars.announcesFifo_created
      · cases steps
  | consumePipe vars =>
      simp only [mainStep, code] at steps
      split at steps
      all_goals
        cases steps
        exact vars.announcesFifo_consumed
  | lockLogin | lockFifo vars | lockLogout | clearColumn name i =>
      simp only [mainStep, code] at steps
      split at steps
      all_goals
        cases steps
        try rfl
  | _ =>
      simp only [mainStep, code] at steps
      cases steps
      rfl

/-- The handler reads or stores the descriptor of a fifo. -/
def Frame.storing :
    Frame → Bool
  | .openMailbox _ | .storePipe _ _ _ => true
  | _ => false

/--
The course of a single process: it is stopped behind the end of its shell, its
handler does not store a descriptor when it is stopped, and it sends a `SIGUSR2`
only for a fifo that it then opens.
-/
structure Process.Orderly
    (proc : Process) : Prop where
  stopped : proc.code.leaving = true → proc.stopped = true
  storing :
    ∀ frame ∈ proc.frames, frame.storing = true → proc.stopped = false
  announces : proc.code.announcesFifo = true

namespace Process.Orderly

theorem handle
    {canOpen : String → Bool}
    {fd : Nat}
    {common common' : Common}
    {proc proc' : Process}
    (orderly : proc.Orderly)
    (steps : handlerStep canOpen fd common proc = some (common', proc')) :
    proc'.Orderly := by
  obtain ⟨stopped, storing, announces⟩ := orderly
  have under {top : Frame} {below : List Frame}
      (frames : proc.frames = top :: below) :
      ∀ frame ∈ below, frame.storing = true → proc.stopped = false := by
    intro frame member
    exact storing frame (by rw [frames]; exact List.mem_cons_of_mem _ member)
  have replaced {top next : Frame} {below : List Frame}
      (frames : proc.frames = top :: below)
      (fits : next.storing = true → proc.stopped = false) :
      ∀ frame ∈ next :: below,
        frame.storing = true → proc.stopped = false := by
    intro frame member
    rcases List.mem_cons.mp member with rfl | inBelow
    · exact fits
    · exact under frames frame inBelow
  unfold handlerStep at steps
  split at steps
  case h_1 => cases steps
  case h_2 frames =>
    split at steps
    all_goals
      cases steps
      exact ⟨stopped, replaced frames (by simp [Frame.storing]), announces⟩
  case h_3 frames =>
    split at steps
    · cases steps
      exact ⟨stopped, replaced frames (by simp [Frame.storing]), announces⟩
    · rename_i notStopped
      cases steps
      exact ⟨stopped, fun _ _ _ => by simpa using notStopped, announces⟩
  case h_4 frames =>
    split at steps
    · cases steps
      exact ⟨stopped, replaced frames (by simp [Frame.storing]), announces⟩
    · cases steps
  case h_5 fromId below frames =>
    have notStopped : proc.stopped = false :=
      storing (.openMailbox fromId) (by simp [frames]) rfl
    split at steps
    · cases steps
      exact ⟨stopped, fun _ _ _ => notStopped, announces⟩
    · cases steps
  case h_6 frames =>
    cases steps
    exact ⟨stopped, replaced frames (by simp [Frame.storing]), announces⟩
  case h_7 frames =>
    cases steps
    exact ⟨stopped, under frames, announces⟩

/-- Every process keeps its course. -/
theorem kept : Process.Kept Process.Orderly where
  forked := fun peer => ⟨by simp [Process.forked, Code.leaving],
    by simp [Process.forked], rfl⟩
  main := by
    intro self canOpen common common' proc proc' orderly noFrames steps
    refine ⟨?_, ?_, mainStep_announcesFifo orderly.announces steps⟩
    · intro leaving
      rcases mainStep_leaving steps leaving with already | isStopped
      · exact mainStep_stopped steps (orderly.stopped already)
      · exact isStopped
    · rw [(mainStep_signals steps).frames, noFrames]
      simp
  line := by
    intro common proc line orderly atShell
    have signals := (obey_quiet (by rw [atShell]; rfl) common line).signals
    have stays :
        (obey common proc line).stopped = proc.stopped ∧
          (obey common proc line).code.leaving = false ∧
          (obey common proc line).code.announcesFifo = true := by
      cases line with
      | exit | yell | name | command => exact ⟨rfl, rfl, rfl⟩
      | tell tellId text =>
          simp only [obey]
          split
          · simp [print, atShell, Code.leaving, Code.announcesFifo]
          · exact ⟨rfl, rfl, rfl⟩
    obtain ⟨sameStopped, notLeaving, announces⟩ := stays
    refine ⟨?_, ?_, announces⟩
    · rw [notLeaving]
      simp
    · rw [sameStopped, signals.frames]
      exact orderly.storing
  sent := by
    intro proc target signal text after orderly code
    refine ⟨?_, orderly.storing, after.announcesFifo_signalled⟩
    intro leaving
    rw [goto_code, leavingFlat.signalled target signal text .kill, ← code]
      at leaving
    exact orderly.stopped leaving
  receive := by
    intro proc letter orderly
    unfold Process.receive
    split
    · exact ⟨orderly.stopped, orderly.storing, orderly.announces⟩
    · exact orderly
  exit := fun orderly =>
    ⟨orderly.stopped, orderly.storing, orderly.announces⟩
  interrupt := by
    intro proc signal orderly
    refine ⟨orderly.stopped, ?_, orderly.announces⟩
    intro frame member isStoring
    rcases List.mem_cons.mp member with rfl | below
    · cases signal <;> cases isStoring
    · exact orderly.storing frame below isStoring
  handle := Process.Orderly.handle

end Process.Orderly

/-! ## Stored descriptors and their senders -/

/-- The fifo whose descriptor the process has last registered for a sender. -/
def Process.pipePath
    (proc : Process)
    (fromId : Nat) : Option String :=
  proc.registered.reverse.lookup fromId

/-- A registration changes the fifo of its sender only. -/
theorem Process.pipePath_registers
    {proc proc' : Process}
    {fromId : Nat}
    {path : String}
    (registered : proc'.registered = proc.registered ++ [(fromId, path)])
    (s : Nat) :
    proc'.pipePath s = if s = fromId then some path else proc.pipePath s := by
  rw [pipePath, registered, List.reverse_concat, List.lookup_cons]
  by_cases here : s = fromId
  · simp [here]
  · have differs : (s == fromId) = false := by simpa using here
    rw [differs, if_neg here]
    rfl

/-- The handler was started by a `SIGUSR2` and has not stored the descriptor. -/
def Frame.owesPipe :
    Frame → Bool
  | .userPipeHandler | .openMailbox _ | .storePipe _ _ _ => true
  | _ => false

/-- A `SIGUSR2` has arrived that will still be answered by a store. -/
def Process.owesPipe
    (proc : Process) : Bool :=
  !proc.stopped && (proc.pending .usr2 || proc.frames.any Frame.owesPipe)

/-- Statements outside the handlers leave nothing new to store. -/
theorem Process.owesPipe_of_signals
    {proc proc' : Process}
    (same : SameSignals proc proc')
    (owes : proc'.owesPipe = true) :
    proc.owesPipe = true := by
  rw [owesPipe, Bool.and_eq_true, Bool.not_eq_true', same.pending, same.frames]
    at owes
  rw [owesPipe, Bool.and_eq_true, Bool.not_eq_true']
  exact ⟨same.stopped owes.1, owes.2⟩

/-- The delivery of a signal leaves nothing new to store. -/
theorem Process.owesPipe_of_interrupt
    {proc : Process}
    {signal : Signal}
    (pending : proc.pending signal = true)
    (owes : (proc.interrupt signal).owesPipe = true) :
    proc.owesPipe = true := by
  cases signal <;>
    simp_all [owesPipe, interrupt, Signal.handler, Frame.owesPipe]

/-- The id that a handler stores under; it is read from the entry at the start. -/
def Frame.storesUnder
    (client : ClientInfor) :
    Frame → Nat
  | .openMailbox fromId | .storePipe fromId _ _ => fromId
  | _ => client.fromId

/-- The process has yet to store a descriptor under the id of this sender. -/
def Process.storesFrom
    (client : ClientInfor)
    (proc : Process)
    (fromId : Nat) : Bool :=
  !proc.stopped &&
    (proc.pending .usr2 && decide (client.fromId = fromId) ||
      proc.frames.any fun frame =>
        frame.owesPipe && decide (frame.storesUnder client = fromId))

/-- The process is inside the loops of `delete_client_infor`. -/
def Code.clearsPipes :
    Code → Bool
  | .clearRow | .clearColumn _ _ => true
  | _ => false

namespace Machine

/--
The condition on a leaving client: when it comes to its entry in a row, the
client of the row has no descriptor of it left to store.
-/
def clearsStored
    (machine : Machine) :
    Action → Bool
  | .main pid =>
      match (machine.procs pid).code with
      | .clearColumn _ i =>
          decide (∀ other ∈ machine.forked,
            (machine.procs other).id = i →
            (machine.procs other).storesFrom (machine.common.client i)
              (machine.procs pid).id = false)
      | _ => true
  | _ => true

/--
The process runs the session that has the id, and this session is not over: its
entry is in use, or it has not finished `delete_client_infor`.
-/
structure InSession
    (machine : Machine)
    (id pid : Nat) : Prop where
  member : pid ∈ machine.forked
  running : (machine.procs pid).running = true
  ownId : (machine.procs pid).id = id
  entry : (machine.common.client id).pid = pid
  loggedIn :
    (machine.common.client id).state = true ∨
      (machine.procs pid).code.clearsPipes = true

/--
Every descriptor in the row of a logged-in client is that of a fifo which was
announced by a session that is not over.
-/
def SendersRemain
    (machine : Machine) : Prop :=
  ∀ r ∈ clientIds, (machine.common.client r).state = true →
    ∀ s, 0 ≤ (machine.common.client r).userPipe s →
      ∃ letter ∈ (machine.procs (machine.common.client r).pid).signalled,
        letter.signal = .usr2 ∧ letter.fromId = s ∧
          (machine.procs (machine.common.client r).pid).pipePath s =
            some letter.text ∧
          machine.InSession s letter.sender

/-- The session of the sender has not passed its entry in a row. -/
def SenderKeeps
    (machine : Machine)
    (r : Nat)
    (letter : Letter) : Prop :=
  letter.sender ∈ machine.forked ∧
    (machine.procs letter.sender).code.tenure.keepsColumn r = true

/-- The row of a client and the letters of the process that owns it. -/
structure Stored
    (machine : Machine)
    (r s pid : Nat) : Prop where
  member : pid ∈ machine.forked
  ownsRow : (machine.procs pid).code.tenure.ownsRow = true
  ownId : (machine.procs pid).id = r
  letter :
    ∃ letter ∈ (machine.procs pid).signalled,
      letter.signal = .usr2 ∧ letter.fromId = s ∧
        (machine.procs pid).pipePath s = some letter.text ∧
        machine.SenderKeeps r letter

/--
What is stored, and what a handler will still store, comes from sessions that
have not passed their entry in the row.
-/
structure PipesKept
    (machine : Machine) : Prop where
  delivering : Delivering machine
  balanced : machine.admission.Balanced
  tenancy : machine.slots.Tenancy
  orderly : ∀ pid ∈ machine.forked, (machine.procs pid).Orderly
  stored :
    ∀ r ∈ clientIds, ∀ s,
      0 ≤ (machine.common.client r).userPipe s → ∃ pid, machine.Stored r s pid
  answering :
    ∀ pid ∈ machine.forked,
      (machine.procs pid).owesPipe = true →
      ∀ earlier letter,
        (machine.procs pid).signalled = earlier ++ [letter] →
        letter.signal = .usr2 →
        machine.SenderKeeps (machine.procs pid).id letter

variable {machine next : Machine}

/-- What is stored stays so while its owner and its sender go on. -/
theorem Stored.congr
    {r s pid : Nat}
    (stored : machine.Stored r s pid)
    (member : pid ∈ next.forked)
    (ownsRow : (next.procs pid).code.tenure.ownsRow = true)
    (ownId : (next.procs pid).id = r)
    (signalled :
      (machine.procs pid).signalled ⊆ (next.procs pid).signalled)
    (samePath :
      (next.procs pid).pipePath s = (machine.procs pid).pipePath s)
    (keeps :
      ∀ letter ∈ (machine.procs pid).signalled,
        letter.fromId = s →
        machine.SenderKeeps r letter → next.SenderKeeps r letter) :
    next.Stored r s pid := by
  obtain ⟨letter, isLetter, kind, fromId, isPath, senderKeeps⟩ := stored.letter
  exact ⟨member, ownsRow, ownId, letter, signalled isLetter, kind, fromId,
    samePath.trans isPath, keeps letter isLetter fromId senderKeeps⟩

/-- A step in which no session moves on and nothing is stored. -/
structure SameTenants
    (machine next : Machine) : Prop where
  forked : machine.forked ⊆ next.forked
  tenure :
    ∀ pid ∈ machine.forked,
      (next.procs pid).code.tenure = (machine.procs pid).code.tenure
  ownId :
    ∀ pid ∈ machine.forked, (next.procs pid).id = (machine.procs pid).id
  registered :
    ∀ pid ∈ machine.forked,
      (next.procs pid).registered = (machine.procs pid).registered
  signalled :
    ∀ pid ∈ machine.forked,
      (machine.procs pid).signalled ⊆ (next.procs pid).signalled
  userPipe :
    ∀ r s, 0 ≤ (next.common.client r).userPipe s →
      0 ≤ (machine.common.client r).userPipe s

namespace SameTenants

theorem keeps
    (same : machine.SameTenants next)
    {r : Nat}
    {letter : Letter}
    (senderKeeps : machine.SenderKeeps r letter) :
    next.SenderKeeps r letter := by
  refine ⟨same.forked senderKeeps.1, ?_⟩
  rw [same.tenure _ senderKeeps.1]
  exact senderKeeps.2

theorem stored
    (same : machine.SameTenants next)
    (kept : machine.PipesKept)
    (r : Nat)
    (isClient : r ∈ clientIds)
    (s : Nat)
    (isStored : 0 ≤ (next.common.client r).userPipe s) :
    ∃ pid, next.Stored r s pid := by
  obtain ⟨pid, stored⟩ := kept.stored r isClient s (same.userPipe r s isStored)
  refine ⟨pid, stored.congr (same.forked stored.member) ?_ ?_
    (same.signalled pid stored.member) ?_ ?_⟩
  · rw [same.tenure pid stored.member]
    exact stored.ownsRow
  · rw [same.ownId pid stored.member]
    exact stored.ownId
  · rw [Process.pipePath, same.registered pid stored.member]
    rfl
  · exact fun _ _ _ => same.keeps

/-- One process goes on without moving its session. -/
theorem setBoth
    {pid : Nat}
    {common' : Common}
    {proc' : Process}
    (tenure : proc'.code.tenure = (machine.procs pid).code.tenure)
    (ownId : proc'.id = (machine.procs pid).id)
    (registered : proc'.registered = (machine.procs pid).registered)
    (signalled : proc'.signalled = (machine.procs pid).signalled)
    (userPipe :
      ∀ r s, 0 ≤ (common'.client r).userPipe s →
        0 ≤ (machine.common.client r).userPipe s) :
    machine.SameTenants (machine.setBoth pid (common', proc')) := by
  have keep {Data : Type} (data : Process → Data)
      (same : data proc' = data (machine.procs pid)) (other : Nat) :
      data ((machine.setBoth pid (common', proc')).procs other) =
        data (machine.procs other) := by
    by_cases here : other = pid
    · subst here
      simpa using same
    · rw [Machine.setBoth_procs_of_ne here]
  refine ⟨subset_rfl, fun other _ => keep (·.code.tenure) tenure other,
    fun other _ => keep Process.id ownId other,
    fun other _ => keep Process.registered registered other,
    fun other _ => ?_, userPipe⟩
  rw [keep Process.signalled signalled other]
  exact List.Subset.refl _

end SameTenants

end Machine

/-- A session that has its id and has not begun to leave owns its row. -/
theorem Code.ownsRow_of_named
    {code : Code}
    (named : code.unnamed = false)
    (stays : code.leaving = false) :
    code.tenure.ownsRow = true := by
  cases code with
  | broadcast msg i after =>
      cases after with
      | unlockLogout => cases stays
      | shell | announceOut | userPipes => rfl
  | send target signal text stage after =>
      cases after with
      | broadcast msg i after =>
          cases after with
          | unlockLogout => cases stays
          | shell | announceOut | userPipes => rfl
      | shell | openFifo => rfl
  | lockLogin | takeId => cases named
  | clearRow | clearColumn name i | countLogout name | lowerMinId name
  | unlockLogout | exit =>
      cases stays
  | _ => rfl

/-- A session that owns its row has its id. -/
theorem Code.named_of_ownsRow
    {code : Code}
    (ownsRow : code.tenure.ownsRow = true) :
    code.unnamed = false := by
  cases code with
  | lockLogin | takeId => cases ownsRow
  | _ => rfl

/-- A sender that keeps its column is visible or inside `delete_client_infor`. -/
theorem Code.visible_or_clearsPipes
    {code : Code}
    {r : Nat}
    (keeps : code.tenure.keepsColumn r = true) :
    code.tenure = .visible ∨ code.clearsPipes = true := by
  cases code with
  | clearRow | clearColumn name i => exact Or.inr rfl
  | broadcast msg i after =>
      cases after with
      | unlockLogout => cases keeps
      | shell | announceOut | userPipes => exact Or.inl rfl
  | send target signal text stage after =>
      cases after with
      | broadcast msg i after =>
          cases after with
          | unlockLogout => cases keeps
          | shell | announceOut | userPipes => exact Or.inl rfl
      | shell | openFifo => exact Or.inl rfl
  | lockLogin | takeId | countLogin | storePid | storeState | countLogout name
  | lowerMinId name | unlockLogout | exit =>
      cases keeps
  | _ => exact Or.inl rfl

/-- What a process has to store comes from the sender of its last letter. -/
theorem Receiving.storesFrom
    {client : ClientInfor}
    {acquired earlier : List Letter}
    {letter : Letter}
    {proc : Process}
    (receiving : Receiving client acquired proc)
    (owes : proc.owesPipe = true)
    (last : proc.signalled = earlier ++ [letter]) :
    proc.storesFrom client letter.fromId = true := by
  simp only [Process.owesPipe, Bool.and_eq_true, Bool.not_eq_true',
    Bool.or_eq_true] at owes
  obtain ⟨notStopped, owes⟩ := owes
  simp only [Process.storesFrom, notStopped, Bool.not_false, Bool.true_and,
    Bool.or_eq_true, Bool.and_eq_true, decide_eq_true_eq]
  cases receiving with
  | idle unsignalled =>
      simp [unsignalled.1, unsignalled.2] at owes
  | underway before earlier' letter' isUsed _ lastSignalled _ contains answers =>
      have sameLetter : letter' = letter := by
        rw [lastSignalled] at last
        exact (List.append_inj_right' last rfl |> List.singleton_inj.mp)
      subst sameLetter
      cases answers with
      | pending frames only =>
          have isPending : proc.pending .usr2 = true := by
            simpa [frames] using owes
          exact Or.inl
            ⟨isPending, contains.2 ((only .usr2).mp isPending).symm⟩
      | userPipeHandler frames none kind =>
          exact Or.inr (by
            simp [frames, Frame.owesPipe, Frame.storesUnder, contains.2 kind])
      | openMailbox frames | storePipe fd frames =>
          exact Or.inr (by simp [frames, Frame.owesPipe, Frame.storesUnder])
      | msgHandler frames none | openGarbage frames none | post frames none =>
          simp [frames, none, Frame.owesPipe] at owes

/-! ## Statements outside the handlers -/

/-- What a statement outside the handlers stores is no descriptor. -/
theorem mainStep_userPipe
    {self : Nat}
    {canOpen : String → Bool}
    {common common' : Common}
    {proc proc' : Process}
    (steps : mainStep self canOpen common proc = some (common', proc'))
    {r s : Nat}
    (isStored : 0 ≤ (common'.client r).userPipe s) :
    0 ≤ (common.client r).userPipe s := by
  have keeps {i : Nat} {change : ClientInfor → ClientInfor}
      (writes : EntryWrite self common proc i change) (client : ClientInfor)
      (isStored : 0 ≤ (change client).userPipe s) :
      0 ≤ client.userPipe s := by
    cases writes with
    | clearRow =>
        dsimp only at isStored
        split at isStored
        · cases isStored
        · exact isStored
    | clearColumn | consumePipe =>
        dsimp only at isStored
        rw [Function.update_apply] at isStored
        split at isStored
        · cases isStored
        · exact isStored
    | storePid | storeState | storeName | nameStore | clearState | acquire
    | copy | mark | release =>
        exact isStored
  rcases mainStep_writes steps with same | ⟨i, change, writes, same⟩
  · rwa [same] at isStored
  · rw [same] at isStored
    by_cases here : r = i
    · subst here
      rw [Common.client_setClient_self] at isStored
      exact keeps writes _ isStored
    · rwa [Common.client_setClient_of_ne here] at isStored

/-- The row and the columns are given up one by one. -/
theorem Tenure.Follows.gives
    {before after : Tenure}
    (follows : Tenure.Follows before after) :
    (before.ownsRow = true → after.ownsRow = true ∨ before = .row) ∧
      ∀ r ∈ clientIds,
        before.keepsColumn r = true →
        after.keepsColumn r = true ∨ before = .column r := by
  cases follows with
  | stay => exact ⟨Or.inl, fun _ _ => Or.inl⟩
  | enter =>
      exact ⟨fun owns => (by cases owns), fun _ _ keeps => (by cases keeps)⟩
  | clearRow =>
      refine ⟨fun _ => Or.inr rfl, fun r isClient _ => Or.inl ?_⟩
      have inRange := mem_clientIds.mp isClient
      simp only [Tenure.keepsColumn, decide_eq_true_eq]
      omega
  | @clearColumn i inRange =>
      refine ⟨fun owns => (by cases owns), fun r isClient keeps => ?_⟩
      simp only [Tenure.keepsColumn, decide_eq_true_eq, Tenure.column.injEq]
        at keeps ⊢
      omega
  | @cleared i behind =>
      refine ⟨fun owns => (by cases owns), fun r isClient keeps => ?_⟩
      have inRange := mem_clientIds.mp isClient
      simp only [Tenure.keepsColumn, decide_eq_true_eq] at keeps
      omega

/-- A session gives up its row and its columns in single statements only. -/
theorem mainStep_gives
    {self : Nat}
    {canOpen : String → Bool}
    {common common' : Common}
    {proc proc' : Process}
    (steps : mainStep self canOpen common proc = some (common', proc')) :
    (proc.code.tenure.ownsRow = true →
        proc'.code.tenure.ownsRow = true ∨ proc.code.tenure = .row) ∧
      ∀ r ∈ clientIds,
        proc.code.tenure.keepsColumn r = true →
        proc'.code.tenure.keepsColumn r = true ∨
          proc.code.tenure = .column r := by
  cases noWrite : proc.code.writesSlot with
  | false => exact (mainStep_tenure noWrite steps).gives
  | true =>
      cases code : proc.code with
      | takeId =>
          exact ⟨fun owns => (by cases owns), fun _ _ keeps => (by cases keeps)⟩
      | storePid | storeState =>
          simp only [mainStep, code] at steps
          cases steps
          exact ⟨fun _ => Or.inl rfl, fun _ _ keeps => (by cases keeps)⟩
      | clearState =>
          simp only [mainStep, code] at steps
          cases steps
          exact ⟨fun _ => Or.inl rfl, fun _ _ _ => Or.inl rfl⟩
      | _ =>
          rw [code] at noWrite
          cases noWrite

/-- The row is cleared in one statement. -/
theorem Code.eq_clearRow
    {code : Code}
    (isRow : code.tenure = .row) :
    code = .clearRow := by
  cases code with
  | clearRow => rfl
  | broadcast msg i after => cases after <;> cases isRow
  | send target signal text stage after =>
      cases after with
      | broadcast msg i after => cases after <;> cases isRow
      | shell | openFifo => cases isRow
  | _ => cases isRow

/-- An entry of the column is cleared in one statement. -/
theorem Code.eq_clearColumn
    {code : Code}
    {i : Nat}
    (isColumn : code.tenure = .column i) :
    ∃ name, code = .clearColumn name i := by
  cases code with
  | clearColumn name j =>
      cases isColumn
      exact ⟨name, rfl⟩
  | broadcast msg i after => cases after <;> cases isColumn
  | send target signal text stage after =>
      cases after with
      | broadcast msg i after => cases after <;> cases isColumn
      | shell | openFifo => cases isColumn
  | _ => cases isColumn

/-- The row of a leaving session is empty afterwards. -/
theorem mainStep_clearRow
    {self : Nat}
    {canOpen : String → Bool}
    {common common' : Common}
    {proc proc' : Process}
    (code : proc.code = .clearRow)
    (steps : mainStep self canOpen common proc = some (common', proc'))
    {s : Nat}
    (isClient : s ∈ clientIds) :
    ¬ 0 ≤ (common'.client proc.id).userPipe s := by
  have inRange := (mem_clientIds.mp isClient).2
  simp only [mainStep, code] at steps
  cases steps
  simp [Common.client, Common.modify, Shared.clearRow, inRange]

/-- The entry of a leaving session in the row of a client is empty afterwards. -/
theorem mainStep_clearColumn
    {self : Nat}
    {canOpen : String → Bool}
    {common common' : Common}
    {proc proc' : Process}
    {name : String}
    {r : Nat}
    (code : proc.code = .clearColumn name r)
    (steps : mainStep self canOpen common proc = some (common', proc'))
    (isClient : r ∈ clientIds)
    (isUsed : (common.client r).state = true) :
    ¬ 0 ≤ (common'.client r).userPipe proc.id := by
  have inRange := (mem_clientIds.mp isClient).2
  simp only [mainStep, code, if_neg (Nat.not_lt.mpr inRange)] at steps
  cases steps
  simp only [Common.client] at isUsed
  simp [Common.client, Common.modify, Shared.clearColumnEntry, isUsed]

namespace Machine.PipesKept

variable {machine next : Machine}
variable {pid : Nat}

theorem exclusive
    (kept : machine.PipesKept) :
    machine.slots.Exclusive :=
  exclusive_of_balanced kept.balanced

/-- The letters of a session that owns its row carry the ids of their senders. -/
theorem author
    (kept : machine.PipesKept)
    (member : pid ∈ machine.forked)
    (ownsRow : (machine.procs pid).code.tenure.ownsRow = true)
    {letter : Letter}
    (isLetter : letter ∈ (machine.procs pid).signalled) :
    letter.sender ∈ machine.forked ∧
      (machine.procs letter.sender).code.unnamed = false ∧
      (machine.procs letter.sender).id = letter.fromId := by
  have running : (machine.procs pid).running = true := by
    by_contra exited
    rw [Bool.not_eq_true] at exited
    rw [kept.delivering.wired.exited pid member exited] at ownsRow
    cases ownsRow
  have receiving := kept.delivering.receiving pid member running
    (Code.named_of_ownsRow ownsRow)
  exact kept.delivering.authors _ letter (receiving.inOrder.subset isLetter)

/-- A process that has a descriptor to store owns its row. -/
theorem ownsRow_of_owes
    (kept : machine.PipesKept)
    (member : pid ∈ machine.forked)
    (owes : (machine.procs pid).owesPipe = true) :
    (machine.procs pid).running = true ∧
      (machine.procs pid).code.unnamed = false ∧
      (machine.procs pid).code.tenure.ownsRow = true := by
  simp only [Process.owesPipe, Bool.and_eq_true, Bool.not_eq_true'] at owes
  have stays : (machine.procs pid).code.leaving = false := by
    by_contra leaving
    rw [Bool.not_eq_false] at leaving
    rw [(kept.orderly pid member).stopped leaving] at owes
    cases owes.1
  have named : (machine.procs pid).code.unnamed = false := by
    by_contra unnamed
    rw [Bool.not_eq_false] at unnamed
    obtain ⟨noFrames, noPending⟩ :=
      kept.delivering.wired.unsignalled pid member unnamed
    simp [noFrames, noPending] at owes
  refine ⟨?_, named, Code.ownsRow_of_named named stays⟩
  by_contra exited
  rw [Bool.not_eq_true] at exited
  rw [kept.delivering.wired.exited pid member exited] at stays
  cases stays

/-- Every stored descriptor is from a session that is not over. -/
theorem sendersRemain
    (kept : machine.PipesKept) :
    machine.SendersRemain := by
  intro r isClient isUsed s isStored
  obtain ⟨owner, stored⟩ := kept.stored r isClient s isStored
  obtain ⟨pid, member, isVisible, sameId⟩ :=
    kept.tenancy.used r isClient isUsed
  have isOwner : owner = pid :=
    kept.tenancy.owner_unique kept.exclusive stored.member member
      stored.ownsRow (by rw [isVisible]; rfl) (stored.ownId.trans sameId.symm)
  subst isOwner
  have entry : (machine.common.client r).pid = owner := by
    rw [← sameId]
    exact kept.tenancy.entry owner member (by rw [isVisible]; rfl)
  obtain ⟨letter, isLetter, kind, fromId, isPath, senderMember, keeps⟩ :=
    stored.letter
  rw [entry]
  refine ⟨letter, isLetter, kind, fromId, isPath, ?_⟩
  obtain ⟨_, _, senderId⟩ := kept.author stored.member stored.ownsRow isLetter
  rw [fromId] at senderId
  have senderEntry :=
    kept.tenancy.entry letter.sender senderMember
  have senderVisible :=
    kept.tenancy.visible letter.sender senderMember
  simp only [slots, senderId] at senderEntry senderVisible
  refine ⟨senderMember, ?_, senderId, ?_, ?_⟩
  · by_contra exited
    rw [Bool.not_eq_true] at exited
    rw [kept.delivering.wired.exited _ senderMember exited] at keeps
    cases keeps
  · apply senderEntry
    revert keeps
    cases (machine.procs letter.sender).code.tenure <;>
      simp [Tenure.keepsColumn, Tenure.inEntry]
  · rcases Code.visible_or_clearsPipes keeps with isVisible | clears
    · exact Or.inl (senderVisible isVisible)
    · exact Or.inr clears

/-- The rest of the invariant is kept by every step that gives out free ids. -/
theorem of_pipes
    {action : Action}
    (kept : machine.PipesKept)
    (free : machine.givesFreeId action = true)
    (steps : machine.Steps action next)
    (stored :
      ∀ r ∈ clientIds, ∀ s,
        0 ≤ (next.common.client r).userPipe s → ∃ pid, next.Stored r s pid)
    (answering :
      ∀ pid ∈ next.forked,
        (next.procs pid).owesPipe = true →
        ∀ earlier letter,
          (next.procs pid).signalled = earlier ++ [letter] →
          letter.signal = .usr2 →
          next.SenderKeeps (next.procs pid).id letter) :
    next.PipesKept where
  delivering := kept.delivering.step steps
  balanced := kept.balanced.moves steps.admission
  tenancy := kept.tenancy.moves kept.exclusive (steps.slots free)
  orderly := Process.Orderly.kept.step kept.orderly steps
  stored := stored
  answering := answering

/-- One process goes on; what handlers have to store is what it was before. -/
theorem answering_setBoth
    {common' : Common}
    {proc' : Process}
    (kept : machine.PipesKept)
    (keeps :
      ∀ r letter,
        machine.SenderKeeps r letter →
        (machine.setBoth pid (common', proc')).SenderKeeps r letter)
    (ownId : proc'.id = (machine.procs pid).id)
    (signalled : proc'.signalled = (machine.procs pid).signalled)
    (owes : proc'.owesPipe = true → (machine.procs pid).owesPipe = true) :
    ∀ other ∈ machine.forked,
      ((machine.setBoth pid (common', proc')).procs other).owesPipe = true →
      ∀ earlier letter,
        ((machine.setBoth pid (common', proc')).procs other).signalled =
            earlier ++ [letter] →
        letter.signal = .usr2 →
        (machine.setBoth pid (common', proc')).SenderKeeps
          ((machine.setBoth pid (common', proc')).procs other).id letter := by
  intro other member otherOwes earlier letter last kind
  by_cases here : other = pid
  · subst here
    rw [setBoth_procs_self] at otherOwes last ⊢
    rw [signalled] at last
    rw [ownId]
    exact keeps _ letter
      (kept.answering other member (owes otherOwes) earlier letter last kind)
  · rw [setBoth_procs_of_ne here] at otherOwes last ⊢
    exact keeps _ letter
      (kept.answering other member otherOwes earlier letter last kind)

/-- A client that is not in use has a session inside `lock2` or none. -/
theorem locked_of_free
    (kept : machine.PipesKept)
    {r : Nat}
    (member : pid ∈ machine.forked)
    (ownsRow : (machine.procs pid).code.tenure.ownsRow = true)
    (ownId : (machine.procs pid).id = r)
    (isFree : (machine.common.client r).state = false) :
    (machine.procs pid).code.tenure.locked = true := by
  have visible := kept.tenancy.visible pid member
  simp only [slots, ownId, isFree] at visible
  revert ownsRow visible
  cases (machine.procs pid).code.tenure <;>
    simp [Tenure.ownsRow, Tenure.locked]

/-- The session of a sender has cleared its entry when it has passed it. -/
theorem not_stored_of_column
    (kept : machine.PipesKept)
    {owner r s : Nat}
    {name : String}
    {common' : Common}
    {proc' : Process}
    (member : pid ∈ machine.forked)
    (stepped :
      mainStep pid machine.canOpenWriter machine.common (machine.procs pid) =
        some (common', proc'))
    (code : (machine.procs pid).code = .clearColumn name r)
    (ownId : (machine.procs pid).id = s)
    (isClient : r ∈ clientIds)
    (stored : machine.Stored r s owner) :
    ¬ 0 ≤ (common'.client r).userPipe s := by
  rw [← ownId]
  apply mainStep_clearColumn code stepped isClient
  -- otherwise the owner of the row and the leaving session are both in `lock2`
  by_contra notUsed
  rw [Bool.not_eq_true] at notUsed
  have locked := kept.locked_of_free stored.member stored.ownsRow stored.ownId
    notUsed
  have alone : owner = pid :=
    kept.exclusive owner stored.member pid member locked (by
      change (machine.procs pid).code.tenure.locked = true
      rw [code]
      rfl)
  have ownsRow := stored.ownsRow
  rw [alone, code] at ownsRow
  cases ownsRow

/-- Senders keep their columns, but for the entry that a leaving one clears. -/
theorem senderKeeps_main
    {common' : Common}
    {proc' : Process}
    (stepped :
      mainStep pid machine.canOpenWriter machine.common (machine.procs pid) =
        some (common', proc'))
    {r : Nat}
    (isClient : r ∈ clientIds)
    {letter : Letter}
    (senderKeeps : machine.SenderKeeps r letter)
    (notCleared :
      letter.sender = pid →
        ∀ name, (machine.procs pid).code ≠ .clearColumn name r) :
    (machine.setBoth pid (common', proc')).SenderKeeps r letter := by
  refine ⟨senderKeeps.1, ?_⟩
  by_cases here : letter.sender = pid
  · have keeps := senderKeeps.2
    rw [here] at keeps ⊢
    rw [setBoth_procs_self]
    rcases (mainStep_gives stepped).2 r isClient keeps with still | isColumn
    · exact still
    · obtain ⟨name, code⟩ := Code.eq_clearColumn isColumn
      exact absurd code (notCleared here name)
  · rw [setBoth_procs_of_ne here]
    exact senderKeeps.2

/-- A session that owns its row keeps it and its id, or has emptied it. -/
theorem owner_main
    (kept : machine.PipesKept)
    {common' : Common}
    {proc' : Process}
    (stepped :
      mainStep pid machine.canOpenWriter machine.common (machine.procs pid) =
        some (common', proc'))
    {r s : Nat}
    (stored : machine.Stored r s pid)
    (isStored : 0 ≤ (common'.client r).userPipe s) :
    proc'.code.tenure.ownsRow = true ∧ proc'.id = r := by
  have named := Code.named_of_ownsRow stored.ownsRow
  constructor
  · rcases (mainStep_gives stepped).1 stored.ownsRow with still | isRow
    · exact still
    · obtain ⟨letter, isLetter, _, fromId, _⟩ := stored.letter
      obtain ⟨senderMember, senderNamed, senderId⟩ :=
        kept.author stored.member stored.ownsRow isLetter
      have isSender := kept.delivering.isClient senderMember senderNamed
      rw [senderId, fromId] at isSender
      rw [← stored.ownId] at isStored
      exact absurd isStored
        (mainStep_clearRow (Code.eq_clearRow isRow) stepped isSender)
  · rcases mainStep_names stepped with ⟨code, _⟩ | ⟨_, _, rfl⟩ | names
    · rw [code] at named
      cases named
    · exact stored.ownId
    · exact names.id.trans stored.ownId

/-- A process has nothing to store that it had not to store before. -/
theorem owes_main
    (kept : machine.PipesKept)
    (member : pid ∈ machine.forked)
    {common' : Common}
    {proc' : Process}
    (stepped :
      mainStep pid machine.canOpenWriter machine.common (machine.procs pid) =
        some (common', proc'))
    (owes : proc'.owesPipe = true) :
    (machine.procs pid).owesPipe = true ∧
      proc'.id = (machine.procs pid).id := by
  have signals := mainStep_signals stepped
  have owesBefore := Process.owesPipe_of_signals signals owes
  refine ⟨owesBefore, ?_⟩
  obtain ⟨_, named, _⟩ := kept.ownsRow_of_owes member owesBefore
  rcases mainStep_names stepped with ⟨code, _⟩ | ⟨_, _, rfl⟩ | names
  · rw [code] at named
    cases named
  · rfl
  · exact names.id

theorem main
    (kept : machine.PipesKept)
    (free : machine.givesFreeId (.main pid) = true)
    (clears : machine.clearsStored (.main pid) = true)
    (steps : machine.Steps (.main pid) next) :
    next.PipesKept := by
  obtain ⟨member, _, _, common', proc', stepped, rfl⟩ := steps_main steps
  have signals := mainStep_signals stepped
  refine kept.of_pipes free steps ?_ ?_
  · intro r isClient s isStored
    obtain ⟨owner, stored⟩ :=
      kept.stored r isClient s (mainStep_userPipe stepped isStored)
    have keeps :
        ∀ letter ∈ (machine.procs owner).signalled,
          letter.fromId = s →
          machine.SenderKeeps r letter →
          (machine.setBoth pid (common', proc')).SenderKeeps r letter := by
      intro letter isLetter fromId senderKeeps
      refine senderKeeps_main stepped isClient senderKeeps ?_
      intro isOwn name code
      obtain ⟨_, _, senderId⟩ :=
        kept.author stored.member stored.ownsRow isLetter
      rw [isOwn, fromId] at senderId
      exact kept.not_stored_of_column member stepped code senderId isClient
        stored isStored
    refine ⟨owner, ?_⟩
    by_cases here : owner = pid
    · subst here
      obtain ⟨ownsRow, ownId⟩ := kept.owner_main stepped stored isStored
      refine stored.congr member ?_ ?_ ?_ ?_ keeps
      · rw [setBoth_procs_self]
        exact ownsRow
      · rw [setBoth_procs_self]
        exact ownId
      · rw [setBoth_procs_self, signals.signalled]
        exact List.Subset.refl _
      · rw [setBoth_procs_self, Process.pipePath, signals.registered]
        rfl
    · have same := setBoth_procs_of_ne here machine (common', proc')
      refine stored.congr stored.member ?_ ?_ ?_ ?_ keeps
      · rw [same]
        exact stored.ownsRow
      · rw [same]
        exact stored.ownId
      · rw [same]
        exact List.Subset.refl _
      · rw [same]
  · intro other otherMember owes earlier letter last kind
    have before :
        (machine.procs other).owesPipe = true ∧
          ((machine.setBoth pid (common', proc')).procs other).id =
            (machine.procs other).id ∧
          (machine.procs other).signalled = earlier ++ [letter] := by
      by_cases here : other = pid
      · subst here
        rw [setBoth_procs_self] at owes last ⊢
        obtain ⟨owesBefore, sameId⟩ := kept.owes_main member stepped owes
        exact ⟨owesBefore, sameId, signals.signalled.symm.trans last⟩
      · rw [setBoth_procs_of_ne here] at owes last ⊢
        exact ⟨owes, rfl, last⟩
    obtain ⟨owesBefore, sameId, lastBefore⟩ := before
    obtain ⟨running, named, ownsRow⟩ :=
      kept.ownsRow_of_owes otherMember owesBefore
    rw [sameId]
    refine senderKeeps_main stepped
      (kept.delivering.isClient otherMember named)
      (kept.answering other otherMember owesBefore earlier letter lastBefore
        kind) ?_
    intro isOwn name code
    have stores :=
      (kept.delivering.receiving other otherMember running named).storesFrom
        owesBefore lastBefore
    obtain ⟨_, _, senderId⟩ :=
      kept.author otherMember ownsRow
        (by rw [lastBefore]; simp : letter ∈ (machine.procs other).signalled)
    rw [isOwn] at senderId
    simp only [clearsStored, code, decide_eq_true_eq] at clears
    have notStores := clears other otherMember rfl
    rw [senderId, stores] at notStores
    cases notStores

end Machine.PipesKept

/-! ## Statements of the handlers -/

/-- A handler has nothing to store that it had not to store before. -/
theorem handlerStep_owes
    {canOpen : String → Bool}
    {fd : Nat}
    {common common' : Common}
    {proc proc' : Process}
    (steps : handlerStep canOpen fd common proc = some (common', proc'))
    (owes : proc'.owesPipe = true) :
    proc.owesPipe = true := by
  unfold handlerStep at steps
  split at steps
  case h_1 => cases steps
  case h_2 frames | h_3 frames | h_4 frames | h_5 frames =>
    split at steps
    all_goals
      cases steps
      try simp_all [Process.owesPipe, Frame.owesPipe]
  case h_6 frames | h_7 frames =>
    cases steps
    simp_all [Process.owesPipe, Frame.owesPipe]

/-- A handler registers and stores a descriptor, or neither. -/
theorem handlerStep_stores
    {canOpen : String → Bool}
    {fd : Nat}
    {common common' : Common}
    {proc proc' : Process}
    (steps : handlerStep canOpen fd common proc = some (common', proc')) :
    (proc'.registered = proc.registered ∧
        ∀ r s, (common'.client r).userPipe s = (common.client r).userPipe s) ∨
      ∃ fromId path stored below,
        proc.frames = .storePipe fromId path stored :: below ∧
          proc'.registered = proc.registered ++ [(fromId, path)] ∧
          ∀ r, (common'.client r) =
            (common.setClient proc.id fun client =>
              { client with
                userPipe :=
                  Function.update client.userPipe fromId stored }).client r := by
  unfold handlerStep at steps
  split at steps
  case h_1 => cases steps
  case h_2 | h_3 | h_4 | h_5 =>
    split at steps
    all_goals
      cases steps
      try exact Or.inl ⟨rfl, fun _ _ => rfl⟩
  case h_6 fromId path stored below frames =>
    cases steps
    exact Or.inr ⟨fromId, path, stored, below, frames, rfl, fun _ => rfl⟩
  case h_7 =>
    cases steps
    refine Or.inl ⟨rfl, fun r s => ?_⟩
    exact congrFun (Common.setClient_keeps ClientInfor.userPipe
      (by intro client; rfl) common proc.id r) s

/-- The letter of a process that is about to store a descriptor. -/
theorem Receiving.storePipe_letter
    {client : ClientInfor}
    {acquired : List Letter}
    {proc : Process}
    {fromId fd : Nat}
    {path : String}
    {below : List Frame}
    (receiving : Receiving client acquired proc)
    (frames : proc.frames = .storePipe fromId path fd :: below) :
    ∃ earlier letter,
      proc.signalled = earlier ++ [letter] ∧ letter.signal = .usr2 ∧
        letter.fromId = fromId ∧ letter.text = path := by
  cases receiving with
  | idle unsignalled =>
      rw [unsignalled.1] at frames
      cases frames
  | underway before earlier letter isUsed _ lastSignalled _ _ answers =>
      refine ⟨earlier, letter, lastSignalled, ?_⟩
      cases answers with
      | storePipe fd' isFrames none kind =>
          rw [isFrames] at frames
          cases frames
          exact ⟨kind, rfl, rfl⟩
      | pending isFrames | msgHandler isFrames | userPipeHandler isFrames
      | openGarbage isFrames | openMailbox isFrames | post isFrames =>
          rw [isFrames] at frames
          cases frames

/-! ## Steps of the machine -/

theorem tenureFlat :
    Flat Code.tenure AfterBroadcast.tenure := by
  constructor <;> intros <;> rfl

namespace Machine

variable {machine : Machine}
variable {pid target : Nat}
variable {signal : Signal}
variable {text : String}
variable {after : AfterSend}

/-- A process after a signal: it has gone on, received it, both or neither. -/
theorem kill_procs
    (machine : Machine)
    (pid target : Nat)
    (signal : Signal)
    (text : String)
    (after : AfterSend)
    (other : Nat) :
    let sent :=
      Function.update machine.procs pid
        ((machine.procs pid).goto after.signalled) other
    (machine.kill pid target signal text after).procs other = sent ∨
      (machine.kill pid target signal text after).procs other =
        sent.receive ⟨pid, (machine.procs pid).id, signal, text⟩ := by
  by_cases here : other = (machine.common.client target).pid
  · subst here
    exact Or.inr (by simp [kill, setProc])
  · exact Or.inl (by simp [kill, setProc, Function.update_of_ne here])

/-- Data that the sender keeps. -/
theorem sent_data
    {Data : Type}
    (data : Process → Data)
    (machine : Machine)
    (pid : Nat)
    (after : AfterSend)
    (sent :
      data ((machine.procs pid).goto after.signalled) =
        data (machine.procs pid))
    (other : Nat) :
    data (Function.update machine.procs pid
        ((machine.procs pid).goto after.signalled) other) =
      data (machine.procs other) := by
  by_cases here : other = pid
  · subst here
    rw [Function.update_self]
    exact sent
  · rw [Function.update_of_ne here]

/-- Data of the processes that a signal does not change. -/
theorem kill_data
    {Data : Type}
    (data : Process → Data)
    (received :
      ∀ proc pending signalled,
        data { proc with pending := pending, signalled := signalled } =
          data proc)
    (sent :
      data ((machine.procs pid).goto after.signalled) =
        data (machine.procs pid))
    (other : Nat) :
    data ((machine.kill pid target signal text after).procs other) =
      data (machine.procs other) := by
  rw [← sent_data data machine pid after sent other]
  rcases kill_procs machine pid target signal text after other with
    unchanged | receives
  · rw [unchanged]
  · rw [receives, Process.receive]
    split
    · exact received _ _ _
    · rfl

/-- A signal changes nothing at a process, or adds its letter. -/
theorem kill_signalled
    (machine : Machine)
    (pid target : Nat)
    (signal : Signal)
    (text : String)
    (after : AfterSend)
    (other : Nat) :
    (((machine.kill pid target signal text after).procs other).owesPipe =
          (machine.procs other).owesPipe ∧
        ((machine.kill pid target signal text after).procs other).signalled =
          (machine.procs other).signalled) ∨
      ((machine.kill pid target signal text after).procs other).signalled =
        (machine.procs other).signalled ++
          [⟨pid, (machine.procs pid).id, signal, text⟩] := by
  rw [← sent_data Process.owesPipe machine pid after rfl other,
    ← sent_data Process.signalled machine pid after rfl other]
  rcases kill_procs machine pid target signal text after other with
    unchanged | receives
  · rw [unchanged]
    exact Or.inl ⟨rfl, rfl⟩
  · rw [receives, Process.receive]
    split
    · exact Or.inr rfl
    · exact Or.inl ⟨rfl, rfl⟩

end Machine

namespace Machine.PipesKept

variable {machine next : Machine}
variable {pid : Nat}

/-- A handler stores a descriptor. -/
theorem stores
    {fd fromId stored : Nat}
    {path : String}
    {below : List Frame}
    {common' : Common}
    {proc' : Process}
    (kept : machine.PipesKept)
    (steps :
      machine.Steps (.handle pid fd) (machine.setBoth pid (common', proc')))
    (member : pid ∈ machine.forked)
    (stepped :
      handlerStep machine.canOpenReader fd machine.common
        (machine.procs pid) = some (common', proc'))
    (frames :
      (machine.procs pid).frames = .storePipe fromId path stored :: below)
    (registered :
      proc'.registered = (machine.procs pid).registered ++ [(fromId, path)])
    (table :
      ∀ r, common'.client r =
        (machine.common.setClient (machine.procs pid).id fun client =>
          { client with
            userPipe :=
              Function.update client.userPipe fromId stored }).client r) :
    (machine.setBoth pid (common', proc')).PipesKept := by
  have sameMain := handlerStep_sameMain stepped
  have owes : (machine.procs pid).owesPipe = true := by
    have notStopped := (kept.orderly pid member).storing
      (.storePipe fromId path stored) (by simp [frames]) rfl
    simp [Process.owesPipe, notStopped, frames, Frame.owesPipe]
  obtain ⟨running, named, ownsRow⟩ := kept.ownsRow_of_owes member owes
  obtain ⟨earlier, letter, last, kind, isFrom, isText⟩ :=
    (kept.delivering.receiving pid member running named).storePipe_letter frames
  have senderKeeps := kept.answering pid member owes earlier letter last kind
  have keeps :
      ∀ r letter,
        machine.SenderKeeps r letter →
        (machine.setBoth pid (common', proc')).SenderKeeps r letter := by
    intro r letter senderKeeps
    refine ⟨senderKeeps.1, ?_⟩
    by_cases here : letter.sender = pid
    · rw [here, setBoth_procs_self, sameMain.code, ← here]
      exact senderKeeps.2
    · rw [setBoth_procs_of_ne here]
      exact senderKeeps.2
  refine kept.of_pipes rfl steps ?_
    (kept.answering_setBoth keeps sameMain.id sameMain.signalled
      (handlerStep_owes stepped))
  intro r isClient s isStored
  rw [setBoth_common, table] at isStored
  by_cases here : r = (machine.procs pid).id
  · subst here
    rw [Common.client_setClient_self] at isStored
    refine ⟨pid, ?_⟩
    by_cases isNew : s = fromId
    · refine ⟨member, ?_, ?_, letter, ?_, kind, isFrom.trans isNew.symm, ?_,
        keeps _ _ senderKeeps⟩
      · rw [setBoth_procs_self, sameMain.code]
        exact ownsRow
      · rw [setBoth_procs_self]
        exact sameMain.id
      · rw [setBoth_procs_self, sameMain.signalled, last]
        simp
      · rw [setBoth_procs_self, Process.pipePath_registers registered,
          if_pos isNew, isText]
    · dsimp only at isStored
      rw [Function.update_of_ne isNew] at isStored
      obtain ⟨owner, old⟩ := kept.stored _ isClient s isStored
      have isOwner : owner = pid :=
        kept.tenancy.owner_unique kept.exclusive old.member member old.ownsRow
          ownsRow old.ownId
      subst isOwner
      refine old.congr member ?_ ?_ ?_ ?_ fun _ _ _ => keeps _ _
      · rw [setBoth_procs_self, sameMain.code]
        exact ownsRow
      · rw [setBoth_procs_self]
        exact sameMain.id
      · rw [setBoth_procs_self, sameMain.signalled]
        exact List.Subset.refl _
      · rw [setBoth_procs_self, Process.pipePath_registers registered,
          if_neg isNew]
  · rw [Common.client_setClient_of_ne here] at isStored
    obtain ⟨owner, old⟩ := kept.stored r isClient s isStored
    have different : owner ≠ pid := by
      rintro rfl
      exact here old.ownId.symm
    have same := setBoth_procs_of_ne different machine (common', proc')
    refine ⟨owner, old.congr old.member ?_ ?_ ?_ ?_ fun _ _ _ => keeps _ _⟩
    · rw [same]
      exact old.ownsRow
    · rw [same]
      exact old.ownId
    · rw [same]
      exact List.Subset.refl _
    · rw [same]

/-- A step in which one process goes on without moving its session. -/
theorem goes
    {action : Action}
    {common' : Common}
    {proc' : Process}
    (kept : machine.PipesKept)
    (free : machine.givesFreeId action = true)
    (steps : machine.Steps action (machine.setBoth pid (common', proc')))
    (tenure : proc'.code.tenure = (machine.procs pid).code.tenure)
    (ownId : proc'.id = (machine.procs pid).id)
    (registered : proc'.registered = (machine.procs pid).registered)
    (signalled : proc'.signalled = (machine.procs pid).signalled)
    (userPipe :
      ∀ r s, (common'.client r).userPipe s =
        (machine.common.client r).userPipe s)
    (owes : proc'.owesPipe = true → (machine.procs pid).owesPipe = true) :
    (machine.setBoth pid (common', proc')).PipesKept := by
  have same : machine.SameTenants (machine.setBoth pid (common', proc')) :=
    .setBoth tenure ownId registered signalled fun r s isStored => by
      rwa [← userPipe]
  exact kept.of_pipes free steps (same.stored kept)
    (kept.answering_setBoth (fun _ _ => same.keeps) ownId signalled owes)

theorem handle
    {fd : Nat}
    (kept : machine.PipesKept)
    (steps : machine.Steps (.handle pid fd) next) :
    next.PipesKept := by
  obtain ⟨member, _, common', proc', stepped, rfl⟩ := steps_handle steps
  have sameMain := handlerStep_sameMain stepped
  rcases handlerStep_stores stepped with
    ⟨registered, userPipe⟩ |
      ⟨fromId, path, stored, below, frames, registered, table⟩
  · refine kept.goes rfl steps ?_ sameMain.id registered sameMain.signalled
      userPipe (handlerStep_owes stepped)
    rw [sameMain.code]
  · exact kept.stores steps member stepped frames registered table

/-- A signal is sent, and its letter is in the hands of a visible session. -/
theorem kill
    (kept : machine.PipesKept)
    (steps : machine.Steps (.kill pid) next) :
    next.PipesKept := by
  obtain ⟨member, _, _, target, signal, text, after, code, rfl⟩ :=
    steps_kill steps
  have tenure (other : Nat) :
      ((machine.kill pid target signal text after).procs other).code.tenure =
        (machine.procs other).code.tenure := by
    refine kill_data (·.code.tenure) (fun _ _ _ => rfl) ?_ other
    rw [Process.goto_code, tenureFlat.signalled target signal text .kill, code]
  have same :
      machine.SameTenants (machine.kill pid target signal text after) := by
    refine ⟨subset_rfl, fun other _ => tenure other,
      fun other _ => kill_data Process.id (fun _ _ _ => rfl) rfl other,
      fun other _ => kill_data Process.registered (fun _ _ _ => rfl) rfl other,
      ?_, fun _ _ => id⟩
    intro other _
    rcases kill_signalled machine pid target signal text after other with
      ⟨_, unchanged⟩ | grown
    · rw [unchanged]
      exact List.Subset.refl _
    · rw [grown]
      exact List.subset_append_left _ _
  refine kept.of_pipes rfl steps (same.stored kept) ?_
  intro other otherMember owes earlier letter last kind
  rw [same.ownId other otherMember]
  rcases kill_signalled machine pid target signal text after other with
    ⟨sameOwes, unchanged⟩ | grown
  · rw [unchanged] at last
    rw [sameOwes] at owes
    exact same.keeps
      (kept.answering other otherMember owes earlier letter last kind)
  · -- the new letter is a fifo of a session that has yet to open it
    rw [grown] at last
    have isNew := List.singleton_inj.mp (List.append_inj_right' last rfl)
    subst isNew
    refine ⟨member, ?_⟩
    rw [tenure, code]
    have announces := (kept.orderly pid member).announces
    have isUsr2 : signal = .usr2 := kind
    rw [code, isUsr2] at announces
    cases after with
    | openFifo path vars => rfl
    | broadcast msg i after => cases announces
    | shell => cases announces

/-- A step of the parent, with or without a new process. -/
theorem parent
    {action : Action}
    (kept : machine.PipesKept)
    (free : machine.givesFreeId action = true)
    (steps : machine.Steps action next)
    (forks : machine.forked ⊆ next.forked)
    (known : ∀ pid ∈ machine.forked, next.procs pid = machine.procs pid)
    (clients : ∀ i, next.common.client i = machine.common.client i)
    (fresh :
      ∀ pid ∈ next.forked,
        pid ∈ machine.forked ∨ (next.procs pid).owesPipe = false) :
    next.PipesKept := by
  have same : machine.SameTenants next := by
    refine ⟨forks, ?_, ?_, ?_, ?_, fun r s isStored => by rwa [← clients]⟩
    all_goals
      intro pid member
      rw [known pid member]
    exact List.Subset.refl _
  refine kept.of_pipes free steps (same.stored kept) ?_
  intro pid member owes earlier letter last kind
  rcases fresh pid member with old | nothing
  · rw [known pid old] at owes last ⊢
    exact same.keeps (kept.answering pid old owes earlier letter last kind)
  · rw [nothing] at owes
    cases owes

theorem step
    {action : Action}
    (kept : machine.PipesKept)
    (free : machine.givesFreeId action = true)
    (clears : machine.clearsStored action = true)
    (steps : machine.Steps action next) :
    next.PipesKept := by
  cases action with
  | fork pid peer =>
      obtain ⟨fresh, _, _, sameCommon, forks, procs⟩ := steps_fork steps
      refine kept.parent free steps ?_ ?_ (fun i => by rw [sameCommon]) ?_
      · rw [forks]
        exact Finset.subset_insert _ _
      · intro other member
        have different : other ≠ pid := by
          rintro rfl
          exact fresh member
        rw [procs, Function.update_of_ne different]
      · intro other member
        rw [forks] at member
        rcases Finset.mem_insert.mp member with rfl | old
        · rw [procs, Function.update_self]
          exact Or.inr rfl
        · exact Or.inl old
  | waitLock =>
      obtain ⟨clients, _, _, sameForked, sameProcs⟩ := steps_waitLock steps
      exact kept.parent free steps sameForked.symm.subset
        (fun pid _ => by rw [sameProcs]) clients
        (fun pid member => Or.inl (by rwa [sameForked] at member))
  | waitRoom =>
      obtain ⟨sameCommon, sameForked, sameProcs⟩ := steps_waitRoom steps
      exact kept.parent free steps sameForked.symm.subset
        (fun pid _ => by rw [sameProcs]) (fun i => by rw [sameCommon])
        (fun pid member => Or.inl (by rwa [sameForked] at member))
  | main pid => exact kept.main free clears steps
  | line pid line =>
      obtain ⟨member, _, atShell, rfl⟩ := steps_line steps
      have signals :=
        (obey_quiet (by rw [atShell]; rfl) machine.common line).signals
      refine kept.goes free steps ?_ (obey_names atShell machine.common line).1
        signals.registered signals.signalled (fun _ _ => rfl) ?_
      · rw [atShell]
        by_cases leaves : line = .exit
        · subst leaves
          rfl
        · exact tenureFlat.obey atShell machine.common leaves
      · exact Process.owesPipe_of_signals signals
  | kill pid => exact kept.kill steps
  | exit pid =>
      obtain ⟨_, _, _, _, rfl⟩ := steps_exit steps
      exact kept.goes free steps rfl rfl rfl rfl (fun _ _ => rfl) id
  | deliver pid signal =>
      obtain ⟨_, _, pending, rfl⟩ := steps_deliver steps
      refine kept.goes free steps rfl rfl rfl rfl (fun _ _ => rfl) ?_
      exact Process.owesPipe_of_interrupt pending
  | handle pid fd => exact kept.handle steps

end Machine.PipesKept

namespace Machine

theorem pipesKept_initial (serverPid : Nat) :
    (initial serverPid).PipesKept where
  delivering := .initially serverPid
  balanced := admission_initial serverPid
  tenancy := tenancy_initial serverPid
  orderly := by simp [initial]
  stored := by
    intro r isClient s isStored
    simp only [initial, Common.client, Shared.createSharedMem,
      if_pos isClient] at isStored
    cases isStored
  answering := by simp [initial]

/--
In every run in which each login is given an id that is not in use, and no
leaving client comes to its entry in the row of a client that has yet to store a
descriptor from it, every descriptor in the row of a logged-in client is that of
a fifo of a session that is not over.
-/
theorem senders_remain
    (serverPid : Nat)
    {path : List (Action × Machine)}
    (isPath : Path Steps (initial serverPid) path)
    (orderly :
      EveryStep
        (fun machine action =>
          machine.givesFreeId action = true ∧
            machine.clearsStored action = true)
        (initial serverPid) path) :
    EveryState SendersRemain (initial serverPid) path := by
  have kept : EveryState PipesKept (initial serverPid) path := by
    refine Path.everyState_of_everyStep ?_ (pipesKept_initial serverPid) isPath
      orderly
    intro machine action next kept condition steps
    exact kept.step condition.1 condition.2 steps
  exact kept.mono fun machine kept => kept.sendersRemain

/-- The first client answers a message. -/
def answerMailActions : List Action :=
  [.deliver 10 .usr1, .handle 10 0, .handle 10 0]

/--
The second client pipes to the first one.  It has returned from its `open`, and
the handler of the first one has yet to store the descriptor.
-/
def openedPipeActions : List Action :=
  twoLoginActions ++ answerMailActions ++
    [Action.line 11 (.command (pipeLine 1))] ++ List.replicate 6 (Action.main 11) ++
    [Action.kill 11] ++ answerMailActions ++ List.replicate 38 (Action.main 11) ++
    [Action.kill 11, .deliver 10 .usr2, .handle 10 3, .main 11, .handle 10 3]

/-- The handler stores the descriptor at once. -/
def storedPipeActions : List Action :=
  openedPipeActions ++ [.handle 10 3, .handle 10 3]

/-- A stored descriptor with a sender that is logged in. -/
theorem senders_remain_stored :
    EveryState SendersRemain (initial 5) (actionPath 5 storedPipeActions) ∧
      ((lastState (initial 5)
        (actionPath 5 storedPipeActions)).common.client 1).userPipe 2 = 3 := by
  refine ⟨senders_remain 5 (path_actionPath (by decide +kernel)) ?_,
    by decide +kernel⟩
  decide +kernel

/--
The second client leaves, and has cleared its column before the handler stores
the descriptor.  Then a third client gets its id.
-/
def overtakenPipeActions : List Action :=
  openedPipeActions ++ [Action.main 11, .line 11 .exit] ++
    List.replicate 38 (Action.main 11) ++ [Action.handle 10 3, .handle 10 3] ++
    List.replicate 3 (Action.main 11) ++ [Action.kill 11] ++
    List.replicate 31 (Action.main 11) ++
    [Action.exit 11, .waitLock, .waitRoom, .fork 12 "c"] ++
    List.replicate 5 (Action.main 12)

/-- The third client is taken as the sender of the pipe. -/
theorem senders_not_remain :
    Path Steps (initial 5) (actionPath 5 overtakenPipeActions) ∧
      ((lastState (initial 5)
        (actionPath 5 overtakenPipeActions)).common.client 1).userPipe 2 = 3 ∧
      ((lastState (initial 5)
        (actionPath 5 overtakenPipeActions)).procs 11).running = false ∧
      ((lastState (initial 5)
        (actionPath 5 overtakenPipeActions)).common.client 2).state = true ∧
      ((lastState (initial 5)
        (actionPath 5 overtakenPipeActions)).common.client 2).pid = 12 ∧
      ¬ (lastState (initial 5)
        (actionPath 5 overtakenPipeActions)).SendersRemain := by
  refine ⟨path_actionPath (by decide +kernel), by decide +kernel,
    by decide +kernel, by decide +kernel, by decide +kernel, ?_⟩
  intro remain
  obtain ⟨letter, isLetter, _, _, _, session⟩ :=
    remain 1 (by decide) (by decide +kernel) 2 (by decide +kernel)
  have isEntry := session.entry
  have others :
      ∀ letter ∈ ((lastState (initial 5)
          (actionPath 5 overtakenPipeActions)).procs
            ((lastState (initial 5)
              (actionPath 5 overtakenPipeActions)).common.client
                1).pid).signalled,
        ((lastState (initial 5)
          (actionPath 5 overtakenPipeActions)).common.client 2).pid ≠
            letter.sender := by
    decide +kernel
  exact others letter isLetter isEntry

end Machine

end NpServers.MultiProc
