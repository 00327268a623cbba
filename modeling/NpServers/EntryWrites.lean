import NpServers.SessionWiring

namespace NpServers.MultiProc

open Shell

/-!
# What the sessions write into the table

Every entry of `client_list` is written by single statements: by the session
that owns it, by senders at its mailbox, by the column loop of a leaving session
and by the handlers of its owner.  This module names these writes once, for any
result about one field of the table.
-/

/-- Some data of all entries after a change of one. -/
theorem Common.setClient_data
    {Data : Type}
    (data : ClientInfor → Data)
    (common : Common)
    (i : Nat)
    (change : ClientInfor → ClientInfor) :
    (fun j => data ((common.setClient i change).client j)) =
      Function.update (fun j => data (common.client j)) i
        (data (change (common.client i))) := by
  funext j
  by_cases here : j = i
  · subst here
    simp
  · rw [client_setClient_of_ne here, Function.update_of_ne here]

/-- The writes of the statements outside the handlers. -/
inductive EntryWrite
    (self : Nat)
    (common : Common)
    (proc : Process) :
    Nat → (ClientInfor → ClientInfor) → Prop where
  | storePid (code : proc.code = .storePid) :
      EntryWrite self common proc proc.id fun client =>
        { client with pid := self }
  | storeState (code : proc.code = .storeState) :
      EntryWrite self common proc proc.id fun client =>
        { client with state := true }
  | storeName (code : proc.code = .storeName) :
      EntryWrite self common proc proc.id fun client =>
        { client with name := noName }
  | nameStore {name : String} (code : proc.code = .nameStore name) :
      EntryWrite self common proc proc.id fun client =>
        { client with name := name }
  | clearState (code : proc.code = .clearState) :
      EntryWrite self common proc proc.id fun client =>
        { client with state := false }
  | clearRow (code : proc.code = .clearRow) :
      EntryWrite self common proc proc.id fun client =>
        { client with
          userPipe := fun i =>
            if i ≤ maxClientNum then -1 else client.userPipe i }
  | clearColumn
      {name : String}
      {i : Nat}
      (code : proc.code = .clearColumn name i)
      (inRange : i ≤ maxClientNum)
      (isClient : (common.client i).state = true) :
      EntryWrite self common proc i fun client =>
        { client with
          userPipe := Function.update client.userPipe proc.id (-1) }
  | consumePipe
      {vars : PipeVars}
      (code : proc.code = .consumePipe vars)
      (consumes : consumesPipe common vars = true) :
      EntryWrite self common proc proc.id fun client =>
        { client with
          userPipe := Function.update client.userPipe vars.line.userInId (-1) }
  | acquire
      {target : Nat}
      {signal : Signal}
      {text : String}
      {after : AfterSend}
      (code : proc.code = .send target signal text .wait after)
      (free : 0 < (common.client target).lock) :
      EntryWrite self common proc target fun client =>
        { client with lock := client.lock - 1 }
  | copy
      {target : Nat}
      {signal : Signal}
      {text : String}
      {after : AfterSend}
      (code : proc.code = .send target signal text .copy after) :
      EntryWrite self common proc target fun client =>
        { client with mailbox := text }
  | mark
      {target : Nat}
      {signal : Signal}
      {text : String}
      {after : AfterSend}
      (code : proc.code = .send target signal text .mark after) :
      EntryWrite self common proc target fun client =>
        { client with fromId := proc.id }
  | release
      {target : Nat}
      {signal : Signal}
      {text : String}
      {after : AfterSend}
      (code : proc.code = .send target signal text .release after) :
      EntryWrite self common proc target fun client =>
        { client with lock := client.lock + 1 }

/-- The writes of the handlers, with the descriptor that `open` returned. -/
inductive HandlerWrite
    (proc : Process) :
    Nat → (ClientInfor → ClientInfor) → Prop where
  | storePipe
      {fromId fd : Nat}
      {path : String}
      {below : List Frame}
      (frames : proc.frames = .storePipe fromId path fd :: below) :
      HandlerWrite proc proc.id fun client =>
        { client with userPipe := Function.update client.userPipe fromId fd }
  | post
      {below : List Frame}
      (frames : proc.frames = .post :: below) :
      HandlerWrite proc proc.id fun client =>
        { client with lock := client.lock + 1 }

/-- The table is the old one, or the old one with one write. -/
def WritesEntry
    (write : Nat → (ClientInfor → ClientInfor) → Prop)
    (before after : Common) : Prop :=
  (∀ j, after.client j = before.client j) ∨
    ∃ i change,
      write i change ∧
        ∀ j, after.client j = (before.setClient i change).client j

namespace WritesEntry

variable {write : Nat → (ClientInfor → ClientInfor) → Prop}
variable {before after : Common}

theorem unchanged
    (same : ∀ j, after.client j = before.client j) :
    WritesEntry write before after :=
  Or.inl same

theorem one
    {i : Nat}
    {change : ClientInfor → ClientInfor}
    (writes : write i change)
    (same : ∀ j, after.client j = (before.setClient i change).client j) :
    WritesEntry write before after :=
  Or.inr ⟨i, change, writes, same⟩

/-- Data that no write changes is kept in every entry. -/
theorem keeps
    (writesEntry : WritesEntry write before after)
    {Data : Type}
    (data : ClientInfor → Data)
    (kept :
      ∀ {i change}, write i change → ∀ client, data (change client) = data client)
    (j : Nat) :
    data (after.client j) = data (before.client j) := by
  rcases writesEntry with same | ⟨i, change, writes, same⟩
  · rw [same]
  · rw [same]
    exact Common.setClient_keeps data (kept writes) before i j

end WritesEntry

/-- Each statement outside the handlers makes at most one write. -/
theorem mainStep_writes
    {self : Nat}
    {canOpen : String → Bool}
    {common common' : Common}
    {proc proc' : Process}
    (steps : mainStep self canOpen common proc = some (common', proc')) :
    WritesEntry (EntryWrite self common proc) common common' := by
  cases code : proc.code with
  | send target signal text stage after =>
      simp only [mainStep, code] at steps
      cases stage with
      | wait =>
          simp only [sendStep] at steps
          split at steps
          · rename_i free
            cases steps
            exact .one (.acquire code free) fun _ => rfl
          · cases steps
      | copy =>
          simp only [sendStep] at steps
          cases steps
          exact .one (.copy code) fun _ => rfl
      | mark =>
          simp only [sendStep] at steps
          cases steps
          exact .one (.mark code) fun _ => rfl
      | check =>
          simp only [sendStep] at steps
          split at steps
          all_goals
            cases steps
            exact .unchanged fun _ => rfl
      | kill => cases steps
      | release =>
          simp only [sendStep] at steps
          cases steps
          exact .one (.release code) fun _ => rfl
  | shell | exit =>
      simp [mainStep, code] at steps
  | storePid =>
      simp only [mainStep, code] at steps
      cases steps
      exact .one (.storePid code) fun _ => rfl
  | storeState =>
      simp only [mainStep, code] at steps
      cases steps
      exact .one (.storeState code) fun _ => rfl
  | storeName =>
      simp only [mainStep, code] at steps
      cases steps
      exact .one (.storeName code) fun _ => rfl
  | nameStore name =>
      simp only [mainStep, code] at steps
      cases steps
      exact .one (.nameStore code) fun _ => rfl
  | clearState =>
      simp only [mainStep, code] at steps
      cases steps
      exact .one (.clearState code) fun _ => rfl
  | clearRow =>
      simp only [mainStep, code] at steps
      cases steps
      exact .one (.clearRow code) fun _ => rfl
  | takeId | countLogin | scanMinId | postLock | unlockLogin | printLoginMsg
  | broadcast msg i after | nameScan name i | announceIn vars
  | announceOut vars | countFifo vars | unlockFifo vars fileName | stop
  | countLogout name | lowerMinId name | unlockLogout =>
      simp only [mainStep, code] at steps
      cases steps
      exact .unchanged fun _ => rfl
  | lockLogin | createPipe vars | lockFifo vars | openFifo path vars
  | lockLogout =>
      simp only [mainStep, code] at steps
      split at steps
      all_goals
        cases steps
        try exact .unchanged fun _ => rfl
  | consumePipe vars =>
      simp only [mainStep, code] at steps
      split at steps
      · rename_i consumes
        cases steps
        exact .one (.consumePipe code consumes) fun _ => rfl
      · cases steps
        exact .unchanged fun _ => rfl
  | clearColumn name i =>
      simp only [mainStep, code] at steps
      split at steps
      · cases steps
        exact .unchanged fun _ => rfl
      · rename_i inRange
        cases steps
        by_cases isClient : (common.shared.clientList i).state = true
        · refine .one (.clearColumn code (Nat.not_lt.mp inRange) isClient) ?_
          intro j
          change (common.shared.clearColumnEntry proc.id i).clientList j = _
          unfold Shared.clearColumnEntry
          rw [if_pos isClient]
          rfl
        · refine .unchanged fun j => ?_
          change (common.shared.clearColumnEntry proc.id i).clientList j = _
          unfold Shared.clearColumnEntry
          rw [if_neg isClient]
          rfl

/-- Each statement of a handler makes at most one write. -/
theorem handlerStep_writes
    {canOpen : String → Bool}
    {fd : Nat}
    {common common' : Common}
    {proc proc' : Process}
    (steps : handlerStep canOpen fd common proc = some (common', proc')) :
    WritesEntry (HandlerWrite proc) common common' := by
  unfold handlerStep at steps
  split at steps
  case h_1 => cases steps
  case h_6 frames =>
    cases steps
    exact .one (.storePipe frames) fun _ => rfl
  case h_7 frames =>
    cases steps
    exact .one (.post frames) fun _ => rfl
  all_goals
    split at steps
    all_goals
      cases steps
      try exact .unchanged fun _ => rfl

/-- The writes of a step of the machine. -/
inductive Machine.Write
    (machine : Machine) :
    Action → Nat → (ClientInfor → ClientInfor) → Prop where
  | main
      {pid i : Nat}
      {change : ClientInfor → ClientInfor}
      (member : pid ∈ machine.forked)
      (running : (machine.procs pid).running = true)
      (writes : EntryWrite pid machine.common (machine.procs pid) i change) :
      machine.Write (.main pid) i change
  | handle
      {pid fd i : Nat}
      {change : ClientInfor → ClientInfor}
      (member : pid ∈ machine.forked)
      (running : (machine.procs pid).running = true)
      (writes : HandlerWrite (machine.procs pid) i change) :
      machine.Write (.handle pid fd) i change

/-- Each step of the machine makes at most one write. -/
theorem Machine.Steps.writes
    {machine next : Machine}
    {action : Action}
    (steps : machine.Steps action next) :
    WritesEntry (machine.Write action) machine.common next.common := by
  have lifted
      {write : Nat → (ClientInfor → ClientInfor) → Prop}
      {common' : Common}
      (writesEntry : WritesEntry write machine.common common')
      (lifts : ∀ {i change}, write i change → machine.Write action i change) :
      WritesEntry (machine.Write action) machine.common common' := by
    rcases writesEntry with same | ⟨i, change, writes, same⟩
    · exact .unchanged same
    · exact .one (lifts writes) same
  cases action with
  | fork pid peer =>
      obtain ⟨_, _, _, sameCommon, _⟩ := steps_fork steps
      exact .unchanged fun j => by rw [sameCommon]
  | waitLock => exact .unchanged (steps_waitLock steps).1
  | waitRoom => exact .unchanged fun j => by rw [(steps_waitRoom steps).1]
  | main pid =>
      obtain ⟨member, running, _, common', proc', stepped, rfl⟩ :=
        steps_main steps
      exact lifted (mainStep_writes stepped) (.main member running)
  | line pid line =>
      obtain ⟨_, _, _, rfl⟩ := steps_line steps
      exact .unchanged fun _ => rfl
  | kill pid =>
      obtain ⟨_, _, _, target, signal, text, after, _, rfl⟩ := steps_kill steps
      exact .unchanged fun _ => rfl
  | exit pid =>
      obtain ⟨_, _, _, _, rfl⟩ := steps_exit steps
      exact .unchanged fun _ => rfl
  | deliver pid signal =>
      obtain ⟨_, _, _, rfl⟩ := steps_deliver steps
      exact .unchanged fun _ => rfl
  | handle pid fd =>
      obtain ⟨member, running, common', proc', stepped, rfl⟩ :=
        steps_handle steps
      exact lifted (handlerStep_writes stepped) (.handle member running)

end NpServers.MultiProc
