import NpServers.SessionProcess

namespace NpServers.MultiProc

open Shell

/-!
# What the statements of a session process change

Most statements of a session leave locks, mailboxes and signals alone; they are
`Quiet`.  The others are the statements of a sender at a mailbox and of the
handlers.  The effect of each statement is described once here, so that the
results about mailboxes do not go through the code again.
-/

/-- The part of an entry that the lock protects, with the lock. -/
def ClientInfor.mail
    (client : ClientInfor) : Nat × String × Nat :=
  (client.lock, client.mailbox, client.fromId)

namespace Common

@[simp] theorem client_setClient_self
    (common : Common)
    (i : Nat)
    (change : ClientInfor → ClientInfor) :
    (common.setClient i change).client i = change (common.client i) :=
  Shared.setClient_self _ _ _

theorem client_setClient_of_ne
    {i j : Nat}
    (different : j ≠ i)
    (common : Common)
    (change : ClientInfor → ClientInfor) :
    (common.setClient i change).client j = common.client j :=
  Shared.setClient_of_ne different _ _

/-- A change that keeps some data of its entry keeps that data of every entry. -/
theorem setClient_keeps
    {Data : Type}
    (data : ClientInfor → Data)
    {change : ClientInfor → ClientInfor}
    (keeps : ∀ client, data (change client) = data client)
    (common : Common)
    (i j : Nat) :
    data ((common.setClient i change).client j) = data (common.client j) := by
  by_cases here : j = i
  · subst here
    rw [client_setClient_self, keeps]
  · rw [client_setClient_of_ne here]

@[simp] theorem client_acquire
    (common : Common)
    (i j : Nat)
    (letter : Letter) :
    (common.acquire i letter).client j =
      (common.setClient i fun client =>
        { client with lock := client.lock - 1 }).client j :=
  rfl

@[simp] theorem acquired_setClient
    (common : Common)
    (i : Nat)
    (change : ClientInfor → ClientInfor) :
    (common.setClient i change).acquired = common.acquired :=
  rfl

@[simp] theorem connectState_setClient
    (common : Common)
    (i : Nat)
    (change : ClientInfor → ClientInfor) :
    (common.setClient i change).shared.connectState =
      common.shared.connectState :=
  rfl

/-- The rounds of the column loop keep everything but `user_pipe`. -/
theorem clearColumnEntry_keeps
    {Data : Type}
    (data : ClientInfor → Data)
    (keeps : ∀ client pipes, data { client with userPipe := pipes } = data client)
    (common : Common)
    (id i j : Nat) :
    data ((common.modify fun shared => shared.clearColumnEntry id i).client j) =
      data (common.client j) := by
  change data ((common.shared.clearColumnEntry id i).clientList j) = _
  unfold Shared.clearColumnEntry
  split
  · exact setClient_keeps data (fun client => keeps client _) common i j
  · rfl

theorem clearColumnEntry_connectState
    (common : Common)
    (id i : Nat) :
    (common.modify fun shared =>
        shared.clearColumnEntry id i).shared.connectState =
      common.shared.connectState := by
  change (common.shared.clearColumnEntry id i).connectState = _
  unfold Shared.clearColumnEntry
  split <;> rfl

end Common

/-- The id whose lock the code holds. -/
def Code.held :
    Code → Option Nat
  | .send _ _ _ .wait _ => none
  | .send target _ _ _ _ => some target
  | _ => none

theorem Code.held_send
    {stage : SendStage}
    (notWaiting : stage ≠ .wait)
    (target : Nat)
    (signal : Signal)
    (text : String)
    (after : AfterSend) :
    (Code.send target signal text stage after).held = some target := by
  cases stage with
  | wait => exact (notWaiting rfl).elim
  | copy | mark | check | kill | release => rfl

@[simp] theorem AfterBroadcast.held_code
    (after : AfterBroadcast) :
    after.code.held = none := by
  cases after with
  | userPipes vars =>
      simp only [AfterBroadcast.code, PipeVars.start]
      split <;> rfl
  | _ => rfl

@[simp] theorem PipeVars.held_created
    (vars : PipeVars) :
    vars.created.held = none := by
  unfold PipeVars.created
  split <;> rfl

@[simp] theorem PipeVars.held_consumed
    (vars : PipeVars) :
    vars.consumed.held = none := by
  unfold PipeVars.consumed
  split <;> rfl

@[simp] theorem PipeVars.held_start
    (vars : PipeVars) :
    vars.start.held = none := by
  unfold PipeVars.start
  split <;> rfl

@[simp] theorem AfterSend.held_signalled
    (after : AfterSend) :
    after.signalled.held = none := by
  cases after <;> rfl

@[simp] theorem AfterSend.held_released
    (after : AfterSend) :
    after.released.held = none := by
  cases after with
  | openFifo path vars => exact vars.held_created
  | _ => rfl

/-- The fields of a process that only signals and handlers change. -/
structure SameSignals
    (proc proc' : Process) : Prop where
  running : proc'.running = proc.running
  frames : proc'.frames = proc.frames
  pending : proc'.pending = proc.pending
  signalled : proc'.signalled = proc.signalled
  registered : proc'.registered = proc.registered
  mailTexts : proc'.mailTexts = proc.mailTexts
  stopped : proc'.stopped = false → proc.stopped = false

/-- A statement that leaves locks, mailboxes and signals alone. -/
structure Quiet
    (common : Common)
    (proc : Process)
    (common' : Common)
    (proc' : Process) : Prop where
  mail : ∀ i, (common'.client i).mail = (common.client i).mail
  acquired : common'.acquired = common.acquired
  heldBefore : proc.code.held = none
  heldAfter : proc'.code.held = none
  signals : SameSignals proc proc'

namespace SameSignals

theorem refl
    (proc : Process) :
    SameSignals proc proc where
  running := rfl
  frames := rfl
  pending := rfl
  signalled := rfl
  registered := rfl
  mailTexts := rfl
  stopped := id

theorem goto
    (proc : Process)
    (code : Code) :
    SameSignals proc (proc.goto code) where
  running := rfl
  frames := rfl
  pending := rfl
  signalled := rfl
  registered := rfl
  mailTexts := rfl
  stopped := id

theorem print
    (proc : Process)
    (text : String)
    (code : Code) :
    SameSignals proc ((proc.print text).goto code) where
  running := rfl
  frames := rfl
  pending := rfl
  signalled := rfl
  registered := rfl
  mailTexts := by simp [Process.mailTexts, Process.print, Process.goto]
  stopped := id

end SameSignals

namespace Quiet

variable {common common' : Common}
variable {proc : Process}
variable {code : Code}

/-- A quiet statement that only changes what is shared. -/
theorem goto
    (heldBefore : proc.code.held = none)
    (heldAfter : code.held = none)
    (mail : ∀ i, (common'.client i).mail = (common.client i).mail)
    (acquired : common'.acquired = common.acquired) :
    Quiet common proc common' (proc.goto code) where
  mail := mail
  acquired := acquired
  heldBefore := heldBefore
  heldAfter := heldAfter
  signals := .goto proc code

/-- A quiet statement that changes one entry. -/
theorem setClient
    (heldBefore : proc.code.held = none)
    (heldAfter : code.held = none)
    (i : Nat)
    {change : ClientInfor → ClientInfor}
    (keeps : ∀ client, (change client).mail = client.mail) :
    Quiet common proc (common.setClient i change) (proc.goto code) :=
  goto heldBefore heldAfter
    (fun j => Common.setClient_keeps ClientInfor.mail keeps common i j) rfl

/-- A quiet statement that changes nothing but its own position. -/
theorem stay
    (heldBefore : proc.code.held = none)
    (heldAfter : code.held = none) :
    Quiet common proc common (proc.goto code) :=
  goto heldBefore heldAfter (fun _ => rfl) rfl

/-- A quiet statement that writes to the own socket. -/
theorem print
    (heldBefore : proc.code.held = none)
    (heldAfter : code.held = none)
    (text : String) :
    Quiet common proc common ((proc.print text).goto code) where
  mail := fun _ => rfl
  acquired := rfl
  heldBefore := heldBefore
  heldAfter := heldAfter
  signals := .print proc text code

end Quiet

theorem broadcastStep_quiet
    {proc : Process}
    (heldBefore : proc.code.held = none)
    (common : Common)
    (msg : String)
    (i : Nat)
    (after : AfterBroadcast) :
    Quiet common proc common (broadcastStep common proc msg i after) := by
  unfold broadcastStep
  split
  · exact .stay heldBefore after.held_code
  · split
    · split
      · exact .print heldBefore rfl msg
      · exact .stay heldBefore rfl
    · exact .stay heldBefore rfl

theorem nameStep_quiet
    {proc : Process}
    (heldBefore : proc.code.held = none)
    (common : Common)
    (name : String)
    (i : Nat) :
    Quiet common proc common (nameStep common proc name i) := by
  unfold nameStep
  split
  · exact .stay heldBefore rfl
  · split
    · exact .print heldBefore rfl _
    · exact .stay heldBefore rfl

theorem announceIn_quiet
    {proc : Process}
    (heldBefore : proc.code.held = none)
    (common : Common)
    (vars : PipeVars) :
    Quiet common proc common (announceIn common proc vars) := by
  unfold announceIn
  dsimp only
  split
  · exact .stay heldBefore rfl
  · split
    · exact .print heldBefore rfl _
    · split
      · exact .print heldBefore rfl _
      · exact .stay heldBefore rfl

theorem announceOut_quiet
    {proc : Process}
    (heldBefore : proc.code.held = none)
    (common : Common)
    (vars : PipeVars) :
    Quiet common proc common (announceOut common proc vars) := by
  unfold announceOut
  dsimp only
  split
  · exact .stay heldBefore vars.held_start
  · split
    · exact .print heldBefore vars.held_start _
    · split
      · exact .print heldBefore vars.held_start _
      · exact .stay heldBefore rfl

/-- Reading a line is quiet. -/
theorem obey_quiet
    {proc : Process}
    (heldBefore : proc.code.held = none)
    (common : Common)
    (line : Line) :
    Quiet common proc common (obey common proc line) := by
  cases line with
  | tell tellId text =>
      simp only [obey]
      split
      · exact .print heldBefore heldBefore _
      · exact .stay heldBefore rfl
  | _ => exact .stay heldBefore rfl

/--
The statements of `mainStep`: a sender at a mailbox, or a quiet statement.
-/
theorem mainStep_cases
    {self : Nat}
    {canOpen : String → Bool}
    {common common' : Common}
    {proc proc' : Process}
    (steps : mainStep self canOpen common proc = some (common', proc')) :
    Quiet common proc common' proc' ∨
      ∃ target signal text stage after,
        proc.code = .send target signal text stage after ∧
          sendStep self common proc target signal text after stage =
            some (common', proc') := by
  cases code : proc.code with
  | send target signal text stage after =>
      simp only [mainStep, code] at steps
      exact .inr ⟨target, signal, text, stage, after, rfl, steps⟩
  | shell | exit =>
      simp [mainStep, code] at steps
  | storePid | storeState | storeName | clearState | clearRow | nameStore name =>
      simp only [mainStep, code] at steps
      cases steps
      exact .inl (.setClient (by rw [code]; rfl) rfl proc.id fun _ => rfl)
  | countLogin | scanMinId | postLock | unlockLogin | printLoginMsg
  | countFifo vars | unlockFifo vars fileName
  | countLogout name | lowerMinId name | unlockLogout =>
      simp only [mainStep, code] at steps
      cases steps
      exact .inl (.goto (by rw [code]; rfl) rfl (fun _ => rfl) rfl)
  | lockLogin | lockFifo vars | lockLogout =>
      simp only [mainStep, code] at steps
      split at steps
      · cases steps
        exact .inl (.goto (by rw [code]; rfl) rfl (fun _ => rfl) rfl)
      · cases steps
  | takeId | stop =>
      simp only [mainStep, code] at steps
      cases steps
      exact .inl
        { mail := fun _ => rfl
          acquired := rfl
          heldBefore := by rw [code]; rfl
          heldAfter := rfl
          signals := ⟨rfl, rfl, rfl, rfl, rfl, rfl, by simp [Process.goto]⟩ }
  | broadcast msg i after =>
      simp only [mainStep, code] at steps
      cases steps
      exact .inl (broadcastStep_quiet (by rw [code]; rfl) common msg i after)
  | nameScan name i =>
      simp only [mainStep, code] at steps
      cases steps
      exact .inl (nameStep_quiet (by rw [code]; rfl) common name i)
  | announceIn vars =>
      simp only [mainStep, code] at steps
      cases steps
      exact .inl (announceIn_quiet (by rw [code]; rfl) common vars)
  | announceOut vars =>
      simp only [mainStep, code] at steps
      cases steps
      exact .inl (announceOut_quiet (by rw [code]; rfl) common vars)
  | createPipe vars =>
      simp only [mainStep, code] at steps
      split at steps
      · cases steps
        exact .inl (.stay (by rw [code]; rfl) rfl)
      · cases steps
        exact .inl (.stay (by rw [code]; rfl) vars.held_created)
  | openFifo path vars =>
      simp only [mainStep, code] at steps
      split at steps
      · cases steps
        exact .inl
          (.goto (by rw [code]; rfl) vars.held_created (fun _ => rfl) rfl)
      · cases steps
  | consumePipe vars =>
      simp only [mainStep, code] at steps
      split at steps
      · cases steps
        exact .inl
          (.setClient (by rw [code]; rfl) vars.held_consumed proc.id
            fun _ => rfl)
      · cases steps
        exact .inl (.stay (by rw [code]; rfl) vars.held_consumed)
  | clearColumn name i =>
      simp only [mainStep, code] at steps
      split at steps
      · cases steps
        exact .inl (.stay (by rw [code]; rfl) rfl)
      · cases steps
        exact .inl
          (.goto (by rw [code]; rfl) rfl
            (fun j =>
              Common.clearColumnEntry_keeps ClientInfor.mail (fun _ _ => rfl)
                common proc.id i j)
            rfl)

/-- Statements outside the handlers change no signals of their process. -/
theorem mainStep_signals
    {self : Nat}
    {canOpen : String → Bool}
    {common common' : Common}
    {proc proc' : Process}
    (steps : mainStep self canOpen common proc = some (common', proc')) :
    SameSignals proc proc' := by
  rcases mainStep_cases steps with quiet | ⟨_, _, _, stage, _, _, sends⟩
  · exact quiet.signals
  · cases stage with
    | wait | check =>
        simp only [sendStep] at sends
        split at sends <;> cases sends <;> exact .goto proc _
    | copy | mark | release =>
        simp only [sendStep] at sends
        cases sends
        exact .goto proc _
    | kill => cases sends

/-- The data of a process that its handlers leave to its other statements. -/
structure Process.SameMain
    (proc : Process)
    (proc' : Process) : Prop where
  running : proc'.running = proc.running
  id : proc'.id = proc.id
  stopped : proc'.stopped = proc.stopped
  peer : proc'.peer = proc.peer
  code : proc'.code = proc.code
  signalled : proc'.signalled = proc.signalled

theorem handlerStep_sameMain
    {canOpen : String → Bool}
    {fd : Nat}
    {common common' : Common}
    {proc proc' : Process}
    (steps : handlerStep canOpen fd common proc = some (common', proc')) :
    proc.SameMain proc' := by
  unfold handlerStep at steps
  split at steps
  case h_1 => cases steps
  case h_6 | h_7 =>
    cases steps
    exact ⟨rfl, rfl, rfl, rfl, rfl, rfl⟩
  all_goals
    split at steps
    all_goals
      cases steps
      try exact ⟨rfl, rfl, rfl, rfl, rfl, rfl⟩

/-- The handlers change no counter. -/
theorem handlerStep_connectState
    {canOpen : String → Bool}
    {fd : Nat}
    {common common' : Common}
    {proc proc' : Process}
    (steps : handlerStep canOpen fd common proc = some (common', proc')) :
    common'.shared.connectState = common.shared.connectState := by
  unfold handlerStep at steps
  split at steps
  case h_1 => cases steps
  case h_6 | h_7 =>
    cases steps
    rfl
  all_goals
    split at steps
    all_goals
      cases steps
      try rfl

/-! ## Ids and process ids -/

/-- The process has not taken its id yet. -/
def Code.unnamed :
    Code → Bool
  | .lockLogin => true
  | .takeId => true
  | _ => false

/-- Every id handed out is one of the client ids. -/
def Numbered
    (common : Common)
    (proc : Process) : Prop :=
  common.shared.connectState.minId ∈ clientIds ∧
    (proc.code.unnamed = true ∨ proc.id ∈ clientIds)

/-- A statement that leaves the id of its process and all process ids alone. -/
structure SameNames
    (common : Common)
    (proc : Process)
    (common' : Common)
    (proc' : Process) : Prop where
  pid : ∀ i, (common'.client i).pid = (common.client i).pid
  id : proc'.id = proc.id
  unnamed : proc'.code.unnamed = proc.code.unnamed
  minId :
    Numbered common proc → common'.shared.connectState.minId ∈ clientIds

namespace SameNames

variable {common common' : Common}
variable {proc proc' : Process}
variable {code : Code}

/-- A change of one entry that keeps its process id. -/
theorem setClient
    (before : proc.code.unnamed = false)
    (named : code.unnamed = false)
    (i : Nat)
    {change : ClientInfor → ClientInfor}
    (keeps : ∀ client, (change client).pid = client.pid) :
    SameNames common proc (common.setClient i change) (proc.goto code) where
  pid := fun j => Common.setClient_keeps ClientInfor.pid keeps common i j
  id := rfl
  unnamed := named.trans before.symm
  minId := fun numbered => numbered.1

/-- A statement that does not touch process ids or `min_id`. -/
theorem goto
    (before : proc.code.unnamed = false)
    (named : code.unnamed = false)
    (pid : ∀ i, (common'.client i).pid = (common.client i).pid)
    (minId :
      common'.shared.connectState.minId = common.shared.connectState.minId) :
    SameNames common proc common' (proc.goto code) where
  pid := pid
  id := rfl
  unnamed := named.trans before.symm
  minId := fun numbered => minId ▸ numbered.1

/-- A statement that changes nothing that is shared. -/
theorem stay
    (before : proc.code.unnamed = false)
    (id : proc'.id = proc.id)
    (named : proc'.code.unnamed = false) :
    SameNames common proc common proc' where
  pid := fun _ => rfl
  id := id
  unnamed := named.trans before.symm
  minId := fun numbered => numbered.1

end SameNames

@[simp] theorem AfterBroadcast.unnamed_code
    (after : AfterBroadcast) :
    after.code.unnamed = false := by
  cases after with
  | userPipes vars =>
      simp only [AfterBroadcast.code, PipeVars.start]
      split <;> rfl
  | _ => rfl

@[simp] theorem PipeVars.unnamed_start
    (vars : PipeVars) :
    vars.start.unnamed = false := by
  unfold PipeVars.start
  split <;> rfl

@[simp] theorem PipeVars.unnamed_created
    (vars : PipeVars) :
    vars.created.unnamed = false := by
  unfold PipeVars.created
  split <;> rfl

@[simp] theorem PipeVars.unnamed_consumed
    (vars : PipeVars) :
    vars.consumed.unnamed = false := by
  unfold PipeVars.consumed
  split <;> rfl

@[simp] theorem AfterSend.unnamed_signalled
    (after : AfterSend) :
    after.signalled.unnamed = false := by
  cases after <;> rfl

@[simp] theorem AfterSend.unnamed_released
    (after : AfterSend) :
    after.released.unnamed = false := by
  cases after with
  | openFifo path vars => exact vars.unnamed_created
  | _ => rfl

@[simp] theorem Process.goto_id
    (proc : Process)
    (code : Code) :
    (proc.goto code).id = proc.id :=
  rfl

@[simp] theorem Process.goto_code
    (proc : Process)
    (code : Code) :
    (proc.goto code).code = code :=
  rfl

@[simp] theorem Process.print_id
    (proc : Process)
    (text : String) :
    (proc.print text).id = proc.id :=
  rfl

@[simp] theorem Process.print_code
    (proc : Process)
    (text : String) :
    (proc.print text).code = proc.code :=
  rfl

theorem broadcastStep_names
    (common : Common)
    (proc : Process)
    (msg : String)
    (i : Nat)
    (after : AfterBroadcast) :
    (broadcastStep common proc msg i after).id = proc.id ∧
      (broadcastStep common proc msg i after).code.unnamed = false := by
  unfold broadcastStep
  split
  · simp
  · split
    · split <;> simp [Code.unnamed]
    · simp [Code.unnamed]

theorem nameStep_names
    (common : Common)
    (proc : Process)
    (name : String)
    (i : Nat) :
    (nameStep common proc name i).id = proc.id ∧
      (nameStep common proc name i).code.unnamed = false := by
  unfold nameStep
  split
  · simp [Code.unnamed]
  · split <;> simp [Code.unnamed]

theorem announceIn_names
    (common : Common)
    (proc : Process)
    (vars : PipeVars) :
    (announceIn common proc vars).id = proc.id ∧
      (announceIn common proc vars).code.unnamed = false := by
  unfold announceIn
  dsimp only
  split
  · simp [Code.unnamed]
  · split
    · simp [Code.unnamed]
    · split <;> simp [Code.unnamed]

theorem announceOut_names
    (common : Common)
    (proc : Process)
    (vars : PipeVars) :
    (announceOut common proc vars).id = proc.id ∧
      (announceOut common proc vars).code.unnamed = false := by
  unfold announceOut
  dsimp only
  split
  · simp
  · split
    · simp
    · split
      · simp
      · simp [Code.unnamed]

theorem obey_names
    {proc : Process}
    (atShell : proc.code = .shell)
    (common : Common)
    (line : Line) :
    (obey common proc line).id = proc.id ∧
      (obey common proc line).code.unnamed = false := by
  cases line with
  | tell tellId text =>
      simp only [obey]
      split <;> simp [atShell, Code.unnamed]
  | _ => simp [obey, Code.unnamed]

theorem sendStep_names
    {self : Nat}
    {common common' : Common}
    {proc proc' : Process}
    {target : Nat}
    {signal : Signal}
    {text : String}
    {after : AfterSend}
    {stage : SendStage}
    (before : proc.code.unnamed = false)
    (steps :
      sendStep self common proc target signal text after stage =
        some (common', proc')) :
    SameNames common proc common' proc' := by
  cases stage with
  | wait =>
      simp only [sendStep] at steps
      split at steps
      · cases steps
        have kept :
            SameNames common proc
              (common.setClient target fun client =>
                { client with lock := client.lock - 1 })
              (proc.goto (.send target signal text .copy after)) :=
          .setClient before rfl target fun _ => rfl
        exact ⟨kept.pid, kept.id, kept.unnamed, kept.minId⟩
      · cases steps
  | copy | mark =>
      simp only [sendStep] at steps
      cases steps
      exact .setClient before rfl target fun _ => rfl
  | check =>
      simp only [sendStep] at steps
      split at steps
      all_goals
        cases steps
        exact .stay before rfl rfl
  | kill => cases steps
  | release =>
      simp only [sendStep] at steps
      cases steps
      exact .setClient before after.unnamed_released target fun _ => rfl

/--
The statements of `mainStep` as far as ids are concerned: taking an id, storing
the process id, or neither.
-/
theorem mainStep_names
    {self : Nat}
    {canOpen : String → Bool}
    {common common' : Common}
    {proc proc' : Process}
    (steps : mainStep self canOpen common proc = some (common', proc')) :
    (proc.code = .takeId ∧ common' = common ∧
        proc' =
          { proc with id := common.shared.connectState.minId }.goto
            .countLogin) ∨
      (proc.code = .storePid ∧
        common' =
          (common.setClient proc.id fun client => { client with pid := self }) ∧
        proc' = proc.goto .storeState) ∨
      SameNames common proc common' proc' := by
  cases code : proc.code with
  | takeId =>
      simp only [mainStep, code] at steps
      cases steps
      exact .inl ⟨rfl, rfl, rfl⟩
  | storePid =>
      simp only [mainStep, code] at steps
      cases steps
      exact .inr (.inl ⟨rfl, rfl, rfl⟩)
  | send target signal text stage after =>
      simp only [mainStep, code] at steps
      exact .inr (.inr (sendStep_names (by rw [code]; rfl) steps))
  | shell | exit =>
      simp [mainStep, code] at steps
  | storeState | storeName | clearState | clearRow | nameStore name =>
      simp only [mainStep, code] at steps
      cases steps
      exact .inr (.inr (.setClient (by rw [code]; rfl) rfl proc.id fun _ => rfl))
  | countLogin | postLock | unlockLogin | printLoginMsg
  | countFifo vars | unlockFifo vars fileName
  | countLogout name | unlockLogout =>
      simp only [mainStep, code] at steps
      cases steps
      exact .inr (.inr (.goto (by rw [code]; rfl) rfl (fun _ => rfl) rfl))
  | stop =>
      simp only [mainStep, code] at steps
      cases steps
      exact .inr (.inr (.stay (by rw [code]; rfl) rfl rfl))
  | lockLogin =>
      simp only [mainStep, code] at steps
      split at steps
      · cases steps
        refine .inr (.inr ⟨fun _ => rfl, rfl, ?_, fun numbered => numbered.1⟩)
        rw [code]
        rfl
      · cases steps
  | lockFifo vars | lockLogout =>
      simp only [mainStep, code] at steps
      split at steps
      · cases steps
        exact .inr (.inr (.goto (by rw [code]; rfl) rfl (fun _ => rfl) rfl))
      · cases steps
  | scanMinId =>
      simp only [mainStep, code] at steps
      cases steps
      refine .inr (.inr ⟨fun _ => rfl, rfl, by rw [code]; rfl, ?_⟩)
      intro numbered
      change (clientIds.find? fun i => !(common.client i).state).getD
        common.shared.connectState.minId ∈ clientIds
      cases found : clientIds.find? fun i => !(common.client i).state with
      | none => exact numbered.1
      | some i => exact List.mem_of_find?_eq_some found
  | lowerMinId name =>
      simp only [mainStep, code] at steps
      cases steps
      refine .inr (.inr ⟨fun _ => rfl, rfl, by rw [code]; rfl, ?_⟩)
      rintro ⟨minId, unnamed | ownId⟩
      · rw [code] at unnamed
        cases unnamed
      · simp only [Common.modify, Shared.lowerMinId]
        split
        · exact ownId
        · exact minId
  | broadcast msg i after =>
      simp only [mainStep, code] at steps
      cases steps
      obtain ⟨id, named⟩ := broadcastStep_names common proc msg i after
      exact .inr (.inr (.stay (by rw [code]; rfl) id named))
  | nameScan name i =>
      simp only [mainStep, code] at steps
      cases steps
      obtain ⟨id, named⟩ := nameStep_names common proc name i
      exact .inr (.inr (.stay (by rw [code]; rfl) id named))
  | announceIn vars =>
      simp only [mainStep, code] at steps
      cases steps
      obtain ⟨id, named⟩ := announceIn_names common proc vars
      exact .inr (.inr (.stay (by rw [code]; rfl) id named))
  | announceOut vars =>
      simp only [mainStep, code] at steps
      cases steps
      obtain ⟨id, named⟩ := announceOut_names common proc vars
      exact .inr (.inr (.stay (by rw [code]; rfl) id named))
  | createPipe vars =>
      simp only [mainStep, code] at steps
      split at steps
      · cases steps
        exact .inr (.inr (.stay (by rw [code]; rfl) rfl rfl))
      · cases steps
        exact .inr (.inr (.stay (by rw [code]; rfl) rfl vars.unnamed_created))
  | openFifo path vars =>
      simp only [mainStep, code] at steps
      split at steps
      · cases steps
        exact .inr (.inr (.goto (by rw [code]; rfl) vars.unnamed_created (fun _ => rfl) rfl))
      · cases steps
  | consumePipe vars =>
      simp only [mainStep, code] at steps
      split at steps
      · cases steps
        exact .inr (.inr
          (.setClient (by rw [code]; rfl) vars.unnamed_consumed proc.id fun _ => rfl))
      · cases steps
        exact .inr (.inr (.stay (by rw [code]; rfl) rfl vars.unnamed_consumed))
  | clearColumn name i =>
      simp only [mainStep, code] at steps
      split at steps
      · cases steps
        exact .inr (.inr (.stay (by rw [code]; rfl) rfl rfl))
      · cases steps
        exact .inr (.inr
          (.goto (by rw [code]; rfl) rfl
            (fun j =>
              Common.clearColumnEntry_keeps ClientInfor.pid (fun _ _ => rfl)
                common proc.id i j)
            (by rw [Common.clearColumnEntry_connectState])))

/-- The handlers leave all ids alone. -/
theorem handlerStep_names
    {canOpen : String → Bool}
    {fd : Nat}
    {common common' : Common}
    {proc proc' : Process}
    (steps : handlerStep canOpen fd common proc = some (common', proc')) :
    SameNames common proc common' proc' where
  pid := by
    intro i
    unfold handlerStep at steps
    split at steps
    case h_1 => cases steps
    case h_6 | h_7 =>
      cases steps
      exact Common.setClient_keeps ClientInfor.pid (by intro client; rfl) common
        proc.id i
    all_goals
      split at steps
      all_goals
        cases steps
        try rfl
  id := (handlerStep_sameMain steps).id
  unnamed := by rw [(handlerStep_sameMain steps).code]
  minId := by
    intro numbered
    rw [handlerStep_connectState steps]
    exact numbered.1

/-! ## Data that the statements of the shell keep -/

/-- The statements of the commands of the shell and of messages. -/
def Code.interactive :
    Code → Bool
  | .broadcast _ _ _ | .send _ _ _ _ _ | .nameScan _ _ | .nameStore _
  | .announceIn _ | .announceOut _ | .createPipe _ | .lockFifo _
  | .countFifo _ | .unlockFifo _ _ | .openFifo _ _ | .consumePipe _ => true
  | _ => false

/--
Data of a statement that is the same for the whole shell.  Only the broadcast of
a logout may have other data, given by what follows it.
-/
structure Flat
    {Data : Type}
    (data : Code → Data)
    (following : AfterBroadcast → Data) : Prop where
  broadcast :
    ∀ msg i after, data (.broadcast msg i after) = following after
  sendBroadcast :
    ∀ target signal text stage msg i after,
      data (.send target signal text stage (.broadcast msg i after)) =
        following after
  sendShell :
    ∀ target signal text stage,
      data (.send target signal text stage .shell) = data .shell
  sendOpenFifo :
    ∀ target signal text stage path vars,
      data (.send target signal text stage (.openFifo path vars)) = data .shell
  followingShell : following .shell = data .shell
  followingAnnounceOut : ∀ vars, following (.announceOut vars) = data .shell
  followingUserPipes : ∀ vars, following (.userPipes vars) = data .shell
  followingUnlockLogout : following .unlockLogout = data .unlockLogout
  nameScan : ∀ name i, data (.nameScan name i) = data .shell
  nameStore : ∀ name, data (.nameStore name) = data .shell
  announceIn : ∀ vars, data (.announceIn vars) = data .shell
  announceOut : ∀ vars, data (.announceOut vars) = data .shell
  createPipe : ∀ vars, data (.createPipe vars) = data .shell
  lockFifo : ∀ vars, data (.lockFifo vars) = data .shell
  countFifo : ∀ vars, data (.countFifo vars) = data .shell
  unlockFifo : ∀ vars fileName, data (.unlockFifo vars fileName) = data .shell
  openFifo : ∀ path vars, data (.openFifo path vars) = data .shell
  consumePipe : ∀ vars, data (.consumePipe vars) = data .shell

namespace Flat

variable {Data : Type}
variable {data : Code → Data}
variable {following : AfterBroadcast → Data}

theorem start
    (flat : Flat data following)
    (vars : PipeVars) :
    data vars.start = data .shell := by
  unfold PipeVars.start
  split
  · exact flat.consumePipe vars
  · exact flat.createPipe vars

theorem created
    (flat : Flat data following)
    (vars : PipeVars) :
    data vars.created = data .shell := by
  unfold PipeVars.created
  split
  · rfl
  · exact flat.consumePipe vars

theorem consumed
    (flat : Flat data following)
    (vars : PipeVars) :
    data vars.consumed = data .shell := by
  unfold PipeVars.consumed
  split
  · exact flat.createPipe vars
  · rfl

theorem code
    (flat : Flat data following)
    (after : AfterBroadcast) :
    data after.code = following after := by
  cases after with
  | shell => exact flat.followingShell.symm
  | announceOut vars =>
      exact (flat.announceOut vars).trans (flat.followingAnnounceOut vars).symm
  | userPipes vars =>
      exact (flat.start vars).trans (flat.followingUserPipes vars).symm
  | unlockLogout => exact flat.followingUnlockLogout.symm

/-- The stage of a sender does not matter. -/
theorem send
    (flat : Flat data following)
    {target target' : Nat}
    {signal signal' : Signal}
    {text text' : String}
    {stage stage' : SendStage}
    (after : AfterSend) :
    data (.send target signal text stage after) =
      data (.send target' signal' text' stage' after) := by
  cases after with
  | broadcast msg i after => rw [flat.sendBroadcast, flat.sendBroadcast]
  | shell => rw [flat.sendShell, flat.sendShell]
  | openFifo path vars => rw [flat.sendOpenFifo, flat.sendOpenFifo]

theorem signalled
    (flat : Flat data following)
    (target : Nat)
    (signal : Signal)
    (text : String)
    (stage : SendStage)
    (after : AfterSend) :
    data after.signalled = data (.send target signal text stage after) := by
  cases after with
  | broadcast msg i after =>
      exact (flat.broadcast _ _ _).trans (flat.sendBroadcast ..).symm
  | shell => exact (flat.sendShell ..).symm
  | openFifo path vars =>
      exact (flat.openFifo path vars).trans (flat.sendOpenFifo ..).symm

theorem released
    (flat : Flat data following)
    (target : Nat)
    (signal : Signal)
    (text : String)
    (stage : SendStage)
    (after : AfterSend) :
    data after.released = data (.send target signal text stage after) := by
  cases after with
  | broadcast msg i after =>
      exact (flat.broadcast _ _ _).trans (flat.sendBroadcast ..).symm
  | shell => exact (flat.sendShell ..).symm
  | openFifo path vars =>
      exact (flat.created vars).trans (flat.sendOpenFifo ..).symm

theorem broadcastStep
    (flat : Flat data following)
    (common : Common)
    (proc : Process)
    (msg : String)
    (i : Nat)
    (after : AfterBroadcast) :
    data (MultiProc.broadcastStep common proc msg i after).code =
      following after := by
  unfold MultiProc.broadcastStep
  split
  · exact flat.code after
  · split
    · split
      · exact flat.broadcast _ _ _
      · exact flat.sendBroadcast ..
    · exact flat.broadcast _ _ _

theorem nameStep
    (flat : Flat data following)
    (common : Common)
    (proc : Process)
    (name : String)
    (i : Nat) :
    data (MultiProc.nameStep common proc name i).code = data .shell := by
  unfold MultiProc.nameStep
  split
  · exact flat.nameStore name
  · split
    · rfl
    · exact flat.nameScan name _

theorem announceInStep
    (flat : Flat data following)
    (common : Common)
    (proc : Process)
    (vars : PipeVars) :
    data (MultiProc.announceIn common proc vars).code = data .shell := by
  unfold MultiProc.announceIn
  dsimp only
  split
  · exact flat.announceOut vars
  · split
    · exact flat.announceOut vars
    · split
      · exact flat.announceOut vars
      · exact (flat.broadcast _ _ _).trans (flat.followingAnnounceOut vars)

theorem announceOutStep
    (flat : Flat data following)
    (common : Common)
    (proc : Process)
    (vars : PipeVars) :
    data (MultiProc.announceOut common proc vars).code = data .shell := by
  unfold MultiProc.announceOut
  dsimp only
  split
  · exact flat.start vars
  · split
    · exact flat.start vars
    · split
      · exact flat.start vars
      · exact (flat.broadcast _ _ _).trans (flat.followingUserPipes vars)

theorem sendStep
    (flat : Flat data following)
    {self : Nat}
    {common common' : Common}
    {proc proc' : Process}
    {target : Nat}
    {signal : Signal}
    {text : String}
    {after : AfterSend}
    {stage : SendStage}
    (steps :
      MultiProc.sendStep self common proc target signal text after stage =
        some (common', proc')) :
    data proc'.code = data (.send target signal text stage after) := by
  cases stage with
  | wait =>
      simp only [MultiProc.sendStep] at steps
      split at steps
      · cases steps
        exact flat.send after
      · cases steps
  | copy | mark =>
      simp only [MultiProc.sendStep] at steps
      cases steps
      exact flat.send after
  | check =>
      simp only [MultiProc.sendStep] at steps
      split at steps
      all_goals
        cases steps
        exact flat.send after
  | kill => cases steps
  | release =>
      simp only [MultiProc.sendStep] at steps
      cases steps
      exact flat.released ..

/-- A line other than `exit` leaves the session in its shell. -/
theorem obey
    (flat : Flat data following)
    {proc : Process}
    (atShell : proc.code = .shell)
    (common : Common)
    {line : Line}
    (stays : line ≠ .exit) :
    data (MultiProc.obey common proc line).code = data .shell := by
  cases line with
  | exit => exact absurd rfl stays
  | tell tellId text =>
      simp only [MultiProc.obey]
      split
      · rw [Process.print_code, atShell]
      · exact flat.sendShell ..
  | yell text => exact (flat.broadcast _ _ _).trans flat.followingShell
  | name name => exact flat.nameScan name 1
  | command line => exact flat.announceIn _

/-- The statements of the shell keep the data. -/
theorem mainStep
    (flat : Flat data following)
    {self : Nat}
    {canOpen : String → Bool}
    {common common' : Common}
    {proc proc' : Process}
    (interactive : proc.code.interactive = true)
    (steps :
      MultiProc.mainStep self canOpen common proc = some (common', proc')) :
    data proc'.code = data proc.code := by
  cases code : proc.code with
  | send target signal text stage after =>
      simp only [MultiProc.mainStep, code] at steps
      exact flat.sendStep steps
  | broadcast msg i after =>
      simp only [MultiProc.mainStep, code] at steps
      cases steps
      rw [flat.broadcast]
      exact flat.broadcastStep common proc msg i after
  | nameScan name i =>
      simp only [MultiProc.mainStep, code] at steps
      cases steps
      rw [flat.nameScan]
      exact flat.nameStep common proc name i
  | nameStore name =>
      simp only [MultiProc.mainStep, code] at steps
      cases steps
      rw [flat.nameStore]
      exact (flat.broadcast _ _ _).trans flat.followingShell
  | announceIn vars =>
      simp only [MultiProc.mainStep, code] at steps
      cases steps
      rw [flat.announceIn]
      exact flat.announceInStep common proc vars
  | announceOut vars =>
      simp only [MultiProc.mainStep, code] at steps
      cases steps
      rw [flat.announceOut]
      exact flat.announceOutStep common proc vars
  | createPipe vars =>
      simp only [MultiProc.mainStep, code] at steps
      rw [flat.createPipe]
      split at steps
      · cases steps
        exact flat.lockFifo vars
      · cases steps
        exact flat.created vars
  | lockFifo vars =>
      simp only [MultiProc.mainStep, code] at steps
      rw [flat.lockFifo]
      split at steps
      · cases steps
        exact flat.countFifo vars
      · cases steps
  | countFifo vars =>
      simp only [MultiProc.mainStep, code] at steps
      cases steps
      rw [flat.countFifo]
      exact flat.unlockFifo vars _
  | unlockFifo vars fileName =>
      simp only [MultiProc.mainStep, code] at steps
      cases steps
      rw [flat.unlockFifo]
      exact flat.sendOpenFifo ..
  | openFifo path vars =>
      simp only [MultiProc.mainStep, code] at steps
      rw [flat.openFifo]
      split at steps
      · cases steps
        exact flat.created vars
      · cases steps
  | consumePipe vars =>
      simp only [MultiProc.mainStep, code] at steps
      rw [flat.consumePipe]
      split at steps
      all_goals
        cases steps
        exact flat.consumed vars
  | _ =>
      rw [code] at interactive
      cases interactive

end Flat

end NpServers.MultiProc
